import Uptimepage.Orgs.Db

/-!
# Deleting an organisation

`soft_delete_org_for_user` of `storage/orgs.rs`, statement by statement.  It refuses the actor's
last organisation, and holds the actor's lock from the probe for another one to the commit.
-/

namespace Uptimepage.Orgs

open Async Sql

structure DeleteOrg where
  org : OrgId
  actor : UserId
deriving DecidableEq

namespace DeleteOrg

inductive Outcome
  | deleted
  /-- Already tombstoned, or never existed. -/
  | notFound
  | lastOrg
deriving DecidableEq

inductive Phase
  | start (r : DeleteOrg)
  | lockUser (r : DeleteOrg) (now : Time)
  | probe (r : DeleteOrg) (now : Time)
  | update (r : DeleteOrg) (now : Time) (siblings : List OrgId)
  | repoint (r : DeleteOrg) (now : Time) (siblings : List OrgId)
  | audit (r : DeleteOrg) (now : Time) (siblings : List OrgId)
    (repointed : List (String × Option OrgId))
  | commit (r : DeleteOrg) (now : Time) (siblings : List OrgId)
    (repointed : List (String × Option OrgId))
  | returned (r : DeleteOrg) (outcome : Outcome)
  | failed
deriving DecidableEq

def tombstone (r : DeleteOrg) (now : Time) : Write := .setOrgDeleted r.org (some now) now

def entry (r : DeleteOrg) (now : Time) : Write :=
  .insertAudit ⟨r.org, some r.actor, .orgDeleted, now⟩

def repoints (repointed : List (String × Option OrgId)) : List Write :=
  repointed.map fun w => .setActiveOrg w.1 w.2

def written : Phase → List Write
  | .repoint r now _ => [r.tombstone now]
  | .audit r now _ repointed => r.tombstone now :: repoints repointed
  | .commit r now _ repointed => r.tombstone now :: repoints repointed ++ [r.entry now]
  | _ => []

def sessionRows (repointed : List (String × Option OrgId)) : List Key :=
  repointed.map fun w => .sessionRow w.1

def locks : Phase → List Key
  | .probe r _ | .update r _ _ => [.user r.actor]
  | .repoint r _ _ => [.user r.actor, .orgRow r.org]
  | .audit r _ _ repointed | .commit r _ _ repointed =>
    .user r.actor :: .orgRow r.org :: sessionRows repointed
  | _ => []

end DeleteOrg

namespace Db

/-- What the sibling probe looks for: the user's other live organisations. -/
def siblings (db : Db) (user : UserId) (org : OrgId) : List OrgId :=
  (db.memberships.rows.filter fun m => m.userId == user && m.orgId != org && db.isLive m.orgId).map
    Membership.orgId

/-- The sessions pinned to an organisation, with what each is pinned to instead. -/
def repointed (db : Db) (org : OrgId) (now : Time) : List (String × Option OrgId) :=
  (db.sessions.rows.filter fun w => w.activeOrgId == some org && decide (now < w.expiresAt)).map
    fun w => (w.idHash, db.oldestMembershipForUser w.userId)

end Db

/-- The user lock is there for two deletes of one user, which would each see the other's
organisation. -/
def softDeleteOrgForUser (db : Db) : DeleteOrg.Phase → Action DeleteOrg.Phase
  | .start r => some (.run [] [] (.lockUser r db.now))
  | .lockUser r now => some (.run [.user r.actor] [] (.probe r now))
  | .probe r now =>
    let siblings := db.siblings r.actor r.org
    if siblings.isEmpty then some (.rollback (.returned r .lastOrg))
    else some (.run [] [] (.update r now siblings))
  | .update r now siblings =>
    match (db.org? r.org).filter Organization.live with
    | some o =>
      some (.run [.orgRow r.org, .slugRow (toAsciiLowercase o.slug)] [r.tombstone now]
        (.repoint r now siblings))
    | none => some (.rollback (.returned r .notFound))
  | .repoint r now siblings =>
    let repointed := db.repointed r.org now
    some (.run (DeleteOrg.sessionRows repointed) (DeleteOrg.repoints repointed)
      (.audit r now siblings repointed))
  | .audit r now siblings repointed =>
    some (.run [] [r.entry now] (.commit r now siblings repointed))
  | .commit r _ _ _ => some (.commit (.returned r .deleted))
  | .returned _ _ | .failed => none

namespace DeleteOrg

theorem touches_repoints {repointed : List (String × Option OrgId)} {w : Write} {k : Key}
    (hw : w ∈ repoints repointed) (hk : w.touches k) : k ∈ sessionRows repointed := by
  obtain ⟨v, hv, rfl⟩ := List.mem_map.mp hw
  exact List.mem_map.mpr ⟨v, hv, hk.symm⟩

theorem touches_written {p : Phase} {w : Write} {k : Key} (hw : w ∈ written p)
    (hk : w.touches k) : k ∈ locks p := by
  cases p with
  | repoint r now siblings =>
    rw [List.mem_singleton.mp hw] at hk
    exact List.mem_cons_of_mem _ (List.mem_singleton.mpr hk)
  | audit r now siblings repointed =>
    rcases List.mem_cons.mp hw with rfl | hw
    · exact List.mem_cons_of_mem _ (List.mem_cons.mpr (.inl hk))
    · exact List.mem_cons_of_mem _ (List.mem_cons_of_mem _ (touches_repoints hw hk))
  | commit r now siblings repointed =>
    rcases List.mem_cons.mp hw with rfl | hw
    · exact List.mem_cons_of_mem _ (List.mem_cons.mpr (.inl hk))
    · rcases List.mem_append.mp hw with hw | hw
      · exact List.mem_cons_of_mem _ (List.mem_cons_of_mem _ (touches_repoints hw hk))
      · rw [List.mem_singleton.mp hw] at hk
        exact hk.elim
  | _ => exact absurd hw List.not_mem_nil

end DeleteOrg

theorem softDeleteOrgForUser_annotated :
    Annotated softDeleteOrgForUser DeleteOrg.written DeleteOrg.locks Write.touches where
  follows := by
    intro db p m h
    cases p <;> simp only [softDeleteOrgForUser] at h <;> try split at h
    all_goals cases h
    all_goals simp +contextual [Move.Follows, DeleteOrg.written, DeleteOrg.locks]
  covered := fun _ _ hw _ hk => DeleteOrg.touches_written hw hk

/-! ## What a delete leaves as it was -/

namespace Db

variable {db : Db} {org : OrgId} {user : UserId}

theorem mem_siblings {org' : OrgId} : org' ∈ db.siblings user org ↔
    (db.membership? user org').isSome = true ∧ org' ≠ org ∧ db.isLive org' = true := by
  unfold siblings membership?
  rw [List.mem_map]
  constructor
  · rintro ⟨m, hm, rfl⟩
    obtain ⟨hm, hrow⟩ := List.mem_filter.mp hm
    simp only [Bool.and_eq_true, beq_iff_eq, bne_iff_ne] at hrow
    obtain ⟨⟨huser, hne⟩, hlive⟩ := hrow
    have hget : db.memberships.get? (user, m.orgId) = some m :=
      Rows.get?_eq_some.2 ⟨hm, Prod.ext huser rfl⟩
    exact ⟨by rw [hget]; rfl, hne, hlive⟩
  · rintro ⟨hmember, hne, hlive⟩
    obtain ⟨m, hget⟩ := Option.isSome_iff_exists.mp hmember
    obtain ⟨hm, hkey⟩ := Rows.get?_eq_some.1 hget
    obtain ⟨huser, rfl⟩ := Prod.mk.inj hkey
    refine ⟨m, List.mem_filter.mpr ⟨hm, ?_⟩, rfl⟩
    simp only [Bool.and_eq_true, beq_iff_eq, bne_iff_ne]
    exact ⟨⟨huser, hne⟩, hlive⟩

theorem isLive_apply {w : Write} (h : ¬w.touches (.orgRow org)) :
    (db.apply w).isLive org = db.isLive org := by
  unfold isLive
  rw [org?_apply h]

theorem isLive_tombstone (r : DeleteOrg) (now : Time) :
    (db.apply (r.tombstone now)).isLive org = (db.isLive org && org != r.org) := by
  by_cases horg : org = r.org
  · rw [horg, bne_self_eq_false, Bool.and_false]
    unfold isLive DeleteOrg.tombstone
    rw [org?_setOrgDeleted]
    cases h : db.org? r.org with
    | none => rfl
    | some o =>
      rw [Option.map_some, if_pos (beq_iff_eq.mpr (Rows.get?_eq_some.1 h).2)]
      rfl
  · have htouches : ¬(r.tombstone now).touches (.orgRow org) := fun h => horg (Key.orgRow.inj h)
    rw [isLive_apply htouches, bne_iff_ne.mpr horg, Bool.and_true]

end Db

namespace DeleteOrg

/-- The transactions of such requests; the clock moves by itself. -/
def code : Code Db Key Write Phase DeleteOrg Nat where
  apply := Db.apply
  next := softDeleteOrgForUser
  first := .start
  failed := .failed
  outer db elapsed := { db with now := db.now + elapsed }

section

variable {db : Db} {p q : Phase} {org : OrgId} {user : UserId}

theorem memberships_written {w : Write} (hw : w ∈ written p) :
    (db.apply w).memberships = db.memberships := by
  have hrepoints : ∀ {repointed}, w ∈ repoints repointed →
      (db.apply w).memberships = db.memberships := by
    intro repointed hw
    obtain ⟨v, -, rfl⟩ := List.mem_map.mp hw
    rfl
  cases p with
  | repoint r now siblings =>
    rw [List.mem_singleton.mp hw]
    rfl
  | audit r now siblings repointed =>
    rcases List.mem_cons.mp hw with rfl | hw
    · rfl
    · exact hrepoints hw
  | commit r now siblings repointed =>
    rcases List.mem_cons.mp hw with rfl | hw
    · rfl
    · rcases List.mem_append.mp hw with hw | hw
      · exact hrepoints hw
      · rw [List.mem_singleton.mp hw]
        rfl
  | _ => exact absurd hw List.not_mem_nil

theorem membership?_view : (code.view db (written p)).membership? user org =
    db.membership? user org := by
  have hkept : (code.view db (written p)).memberships = db.memberships := by
    refine code.view_kept (P := fun db' => db'.memberships = db.memberships) ?_ rfl
    intro db' w hw hdb
    exact (memberships_written hw).trans hdb
  unfold Db.membership?
  rw [hkept]

theorem isLive_view_of {ws : List Write} (h : ∀ w ∈ ws, ¬w.touches (.orgRow org)) :
    (code.view db ws).isLive org = db.isLive org := by
  refine code.view_kept (P := fun db' => db'.isLive org = db.isLive org) ?_ rfl
  intro db' w hw hdb
  exact (Db.isLive_apply (h w hw)).trans hdb

theorem isLive_view {r : DeleteOrg} {now : Time} {siblings : List OrgId}
    {repointed : List (String × Option OrgId)} :
    (code.view db (written (.commit r now siblings repointed))).isLive org =
      (db.isLive org && org != r.org) := by
  have hrest : ∀ w ∈ repoints repointed ++ [r.entry now], ¬w.touches (.orgRow org) := by
    intro w hw
    rcases List.mem_append.mp hw with hw | hw
    · obtain ⟨v, -, rfl⟩ := List.mem_map.mp hw
      exact Key.noConfusion
    · rw [List.mem_singleton.mp hw]
      exact id
  calc (code.view db (written (.commit r now siblings repointed))).isLive org
    _ = (code.view (db.apply (r.tombstone now)) (repoints repointed ++ [r.entry now])).isLive org :=
        rfl
    _ = (db.apply (r.tombstone now)).isLive org := isLive_view_of hrest
    _ = (db.isLive org && org != r.org) := Db.isLive_tombstone r now

end

/-! ## What the deletes of several owners do to each other -/

namespace Phase

def request? : Phase → Option DeleteOrg
  | .start r | .lockUser r _ | .probe r _ | .update r _ _ | .repoint r _ _ | .audit r _ _ _
  | .commit r _ _ _ | .returned r _ => some r
  | .failed => none

/-- What the probe saw, while it matters. -/
def siblings : Phase → List OrgId
  | .update _ _ siblings | .repoint _ _ siblings | .audit _ _ siblings _
  | .commit _ _ siblings _ => siblings
  | _ => []

/-- The call is through, and deleted nothing. -/
def settled : Phase → Bool
  | .returned _ outcome => outcome != .deleted
  | .failed => true
  | _ => false

/-- Another user's call has deleted the organisation, or still may. -/
def threatens (org : OrgId) (user : UserId) (p : Phase) : Bool :=
  p.request?.any (fun r => r.org == org && r.actor != user) && !p.settled

end Phase

/-- Where a delete commits, no other user's call has deleted, since the probe, one of the
organisations it saw, and none may. -/
def spared (s : State Db Key Write Phase) : Event DeleteOrg Nat → Bool
  | .go i => s.sessions[i]?.all fun x =>
    match x.phase with
    | .commit r _ siblings _ =>
      siblings.any fun org => s.sessions.all fun y => !y.phase.threatens org r.actor
    | _ => true
  | _ => true

/-- The call of slot `i` has returned `Deleted`. -/
def deleted (s : State Db Key Write Phase) (i : Nat) (r : DeleteOrg) : Prop :=
  ∃ x, s.sessions[i]? = some x ∧ x.phase = .returned r .deleted

instance (s : State Db Key Write Phase) (i : Nat) (r : DeleteOrg) : Decidable (deleted s i r) :=
  decidable_of_iff (s.sessions[i]?.map Session.phase = some (.returned r .deleted))
    Option.map_eq_some_iff

section

variable {db : Db} {p q : Phase} {org : OrgId} {r : DeleteOrg} {keys : List Key} {writes : List Write}

theorem next_run (h : softDeleteOrgForUser db p = some (.run keys writes q)) :
    q.request? = p.request? ∧ p.settled = false ∧ (∀ r outcome, q ≠ .returned r outcome) ∧
      (q.siblings = p.siblings ∨ ∃ r now, p = .probe r now ∧ q.siblings = db.siblings r.actor r.org) := by
  cases p with
  | probe r now =>
    simp only [softDeleteOrgForUser] at h
    split at h
    · cases h
    · cases h
      exact ⟨rfl, rfl, fun _ _ => Phase.noConfusion, .inr ⟨r, now, rfl, rfl⟩⟩
  | update r now siblings =>
    simp only [softDeleteOrgForUser] at h
    split at h
    · cases h
      exact ⟨rfl, rfl, fun _ _ => Phase.noConfusion, .inl rfl⟩
    · cases h
  | start r | lockUser r now | repoint r now siblings | audit r now siblings repointed =>
    cases h
    exact ⟨rfl, rfl, fun _ _ => Phase.noConfusion, .inl rfl⟩
  | commit r now siblings repointed | returned r outcome | failed => cases h

theorem next_commit (h : softDeleteOrgForUser db p = some (.commit q)) :
    ∃ r now siblings repointed, p = .commit r now siblings repointed ∧ q = .returned r .deleted := by
  cases p with
  | commit r now siblings repointed =>
    cases h
    exact ⟨r, now, siblings, repointed, rfl, rfl⟩
  | probe r now | update r now siblings =>
    simp only [softDeleteOrgForUser] at h
    split at h <;> cases h
  | start | lockUser | repoint | audit | returned | failed => cases h

theorem next_rollback (h : softDeleteOrgForUser db p = some (.rollback q)) :
    ∃ r outcome, outcome ≠ .deleted ∧ q = .returned r outcome := by
  cases p with
  | probe r now =>
    simp only [softDeleteOrgForUser] at h
    split at h
    · cases h
      exact ⟨r, .lastOrg, Outcome.noConfusion, rfl⟩
    · cases h
  | update r now siblings =>
    simp only [softDeleteOrgForUser] at h
    split at h
    · cases h
    · cases h
      exact ⟨r, .notFound, Outcome.noConfusion, rfl⟩
  | start | lockUser | repoint | audit | commit | returned | failed => cases h

theorem user_mem_locks (horg : org ∈ p.siblings) (hr : p.request? = some r) :
    Key.user r.actor ∈ locks p := by
  cases p with
  | update | repoint | audit | commit =>
    cases hr
    exact List.mem_cons_self
  | start | lockUser | probe | returned | failed => cases horg

end

/-- Another user's call has deleted the organisation. -/
def TakenFrom (s : State Db Key Write Phase) (user : UserId) (org : OrgId) : Prop :=
  ∃ j r, deleted s j r ∧ r.org = org ∧ r.actor ≠ user

structure Kept (s : State Db Key Write Phase) : Prop where
  traced : Traced written locks s
  seen : ∀ (i : Nat) (x : Session Key Write Phase) (r : DeleteOrg), s.sessions[i]? = some x →
    x.phase.request? = some r → ∀ org ∈ x.phase.siblings,
      (s.db.membership? r.actor org).isSome = true ∧ org ≠ r.org ∧
        (s.db.isLive org = true ∨ TakenFrom s r.actor org)

section

variable {s s' : State Db Key Write Phase} {i j : Nat} {x y : Session Key Write Phase}
  {r r' : DeleteOrg} {org : OrgId} {user : UserId}

variable {m : Move Key Write Phase} {now : Time} {e : Event DeleteOrg Nat}

theorem deleted_put (hx : s.sessions[i]? = some x) (hnext : code.nextOf s x = some m)
    (h : deleted s j r) (y : Session Key Write Phase) : deleted (s.put i y) j r := by
  obtain ⟨z, hz, hphase⟩ := h
  refine ⟨z, ?_, hphase⟩
  by_cases hij : i = j
  · rw [← hij, hx] at hz
    rw [← Option.some.inj hz] at hphase
    unfold Code.nextOf at hnext
    rw [hphase] at hnext
    cases hnext
  · exact (List.getElem?_set_ne hij).trans hz

theorem TakenFrom.put (hx : s.sessions[i]? = some x) (hnext : code.nextOf s x = some m)
    (h : TakenFrom s user org) (y : Session Key Write Phase) : TakenFrom (s.put i y) user org := by
  obtain ⟨j, r, hdeleted, hr⟩ := h
  exact ⟨j, r, deleted_put hx hnext hdeleted y, hr⟩

theorem Kept.put (h : Kept s) (htraced : Traced written locks (s.put i y))
    (hx : s.sessions[i]? = some x) (hnext : code.nextOf s x = some m)
    (hy : ∀ r, y.phase.request? = some r → ∀ org ∈ y.phase.siblings,
      (s.db.membership? r.actor org).isSome = true ∧ org ≠ r.org ∧
        (s.db.isLive org = true ∨ TakenFrom s r.actor org)) : Kept (s.put i y) := by
  refine ⟨htraced, ?_⟩
  intro j z r hj hr org horg
  have hz : (s.db.membership? r.actor org).isSome = true ∧ org ≠ r.org ∧
      (s.db.isLive org = true ∨ TakenFrom s r.actor org) := by
    rcases getElem?_set_cases hj with ⟨-, rfl⟩ | ⟨-, hj⟩
    · exact hy r hr org horg
    · exact h.seen j z r hj hr org horg
  obtain ⟨hmember, hne, hlive⟩ := hz
  refine ⟨hmember, hne, ?_⟩
  rcases hlive with hlive | htaken
  · exact .inl hlive
  · exact .inr (htaken.put hx hnext y)

theorem starts : code.Starts written locks := ⟨fun _ => ⟨rfl, rfl⟩, ⟨rfl, rfl⟩⟩

theorem Kept.committed (h : Kept s) {siblings : List OrgId}
    {repointed : List (String × Option OrgId)} (hx : s.sessions[i]? = some x)
    (hphase : x.phase = .commit r now siblings repointed) (hnext : code.nextOf s x = some m)
    {s' : State Db Key Write Phase}
    (hs' : s' = { s with db := code.view s.db x.pending }.put i ⟨.returned r .deleted, [], []⟩)
    (htraced : Traced written locks s') : Kept s' := by
  subst hs'
  have hpending : x.pending = written (.commit r now siblings repointed) :=
    hphase ▸ h.traced.pending i x hx
  refine ⟨htraced, ?_⟩
  intro j z r' hj hr' org horg
  rcases getElem?_set_cases hj with ⟨-, rfl⟩ | ⟨hji, hj⟩
  · cases horg
  obtain ⟨hmember, hne, hlive⟩ := h.seen j z r' hj hr' org horg
  refine ⟨?_, hne, ?_⟩
  · show ((code.view s.db x.pending).membership? r'.actor org).isSome = true
    rw [hpending, membership?_view]
    exact hmember
  · rcases hlive with hlive | htaken
    · by_cases horg' : org = r.org
      · right
        refine ⟨i, r, ⟨_, List.getElem?_set_self ?_, rfl⟩, horg'.symm, ?_⟩
        · exact (List.getElem?_eq_some_iff.mp hx).1
        · intro hactor
          have hheld : Key.user r.actor ∈ locks z.phase := hactor ▸ user_mem_locks horg hr'
          have hheld' : Key.user r.actor ∈ locks x.phase := by
            rw [hphase]
            exact List.mem_cons_self
          exact hji (h.traced.same hj hx hheld hheld')
      · left
        show (code.view s.db x.pending).isLive org = true
        rw [hpending, isLive_view, hlive, bne_iff_ne.mpr horg']
        rfl
    · right
      obtain ⟨j', r'', hdeleted, hr''⟩ := htaken
      exact ⟨j', r'', deleted_put hx hnext hdeleted _, hr''⟩

theorem Kept.step (h : Kept s) (heq : code.step s e = some s') : Kept s' := by
  have htraced := softDeleteOrgForUser_annotated.traced starts h.traced heq
  cases Code.stepped heq with
  | begin request =>
    refine ⟨htraced, ?_⟩
    intro j z r hj hr org horg
    rcases getElem?_snoc_cases hj with hj | ⟨-, rfl⟩
    · obtain ⟨hmember, hne, hlive⟩ := h.seen j z r hj hr org horg
      refine ⟨hmember, hne, ?_⟩
      rcases hlive with hlive | ⟨j', r', ⟨y, hy, hdeleted⟩, hr'⟩
      · exact .inl hlive
      · right
        refine ⟨j', r', ⟨y, ?_, hdeleted⟩, hr'⟩
        exact (List.getElem?_append_left (List.getElem?_eq_some_iff.mp hy).1).trans hy
    · cases horg
  | @run i x keys writes q hx hnext hfree =>
    refine h.put htraced hx hnext ?_
    intro r hr org horg
    obtain ⟨hrequest, -, -, hsiblings⟩ := next_run hnext
    rcases hsiblings with hsiblings | ⟨r', now, hphase, hsiblings⟩
    · exact h.seen _ _ r hx (hrequest ▸ hr) org (hsiblings ▸ horg)
    · have hpending := h.traced.pending _ _ hx
      rw [hphase] at hpending hrequest
      rw [hpending] at hsiblings
      obtain rfl : r' = r := Option.some.inj (hrequest.symm.trans hr)
      have hmem : org ∈ s.db.siblings r'.actor r'.org := hsiblings ▸ horg
      obtain ⟨hmember, hne, hlive⟩ := Db.mem_siblings.1 hmem
      exact ⟨hmember, hne, .inl hlive⟩
  | @commit i x q hx hnext =>
    obtain ⟨r, now, siblings, repointed, hphase, rfl⟩ := next_commit hnext
    exact h.committed hx hphase hnext rfl htraced
  | rollback hx hnext =>
    obtain ⟨r, outcome, -, rfl⟩ := next_rollback hnext
    refine h.put htraced hx hnext ?_
    intro _ _ org horg
    cases horg
  | abort hx hnext =>
    refine h.put htraced hx hnext ?_
    intro _ _ org horg
    cases horg
  | outer elapsed => exact ⟨htraced, h.seen⟩

theorem commits_of_deleted (heq : code.step s e = some s') (hnew : ¬deleted s i r)
    (hdeleted : deleted s' i r) :
    e = .go i ∧ ∃ x now siblings repointed, s.sessions[i]? = some x ∧
      x.phase = .commit r now siblings repointed ∧
      s' = { s with db := code.view s.db x.pending }.put i ⟨.returned r .deleted, [], []⟩ := by
  obtain ⟨z, hz, hphase⟩ := hdeleted
  have hold : ∀ {l : Nat} {y : Session Key Write Phase}, (s.sessions.set l y)[i]? = some z →
      l = i ∧ y = z := by
    intro l y hz
    rcases getElem?_set_cases hz with ⟨rfl, rfl⟩ | ⟨-, hz⟩
    · exact ⟨rfl, rfl⟩
    · exact absurd ⟨z, hz, hphase⟩ hnew
  cases Code.stepped heq with
  | begin request =>
    rcases getElem?_snoc_cases hz with hz | ⟨-, rfl⟩
    · exact absurd ⟨z, hz, hphase⟩ hnew
    · cases hphase
  | run hx hnext hfree =>
    obtain ⟨-, rfl⟩ := hold hz
    exact absurd hphase ((next_run hnext).2.2.1 r .deleted)
  | commit hx hnext =>
    obtain ⟨rfl, rfl⟩ := hold hz
    obtain ⟨r', now, siblings, repointed, hcommit, hq⟩ := next_commit hnext
    obtain ⟨rfl, -⟩ := Phase.returned.inj (hphase.symm.trans hq)
    exact ⟨rfl, _, now, siblings, repointed, hx, hcommit, by rw [hq]⟩
  | rollback hx hnext =>
    obtain ⟨-, rfl⟩ := hold hz
    obtain ⟨r', outcome, hne, hq⟩ := next_rollback hnext
    exact absurd (Phase.returned.inj (hq.symm.trans hphase)).2 hne
  | abort hx hnext =>
    obtain ⟨-, rfl⟩ := hold hz
    cases hphase
  | outer elapsed => exact absurd ⟨z, hz, hphase⟩ hnew

theorem Kept.spared (h : Kept s) (hspared : spared s (.go i) = true)
    (hx : s.sessions[i]? = some x) {siblings : List OrgId}
    {repointed : List (String × Option OrgId)}
    (hphase : x.phase = .commit r now siblings repointed) :
    ∃ org, org ≠ r.org ∧ (s.db.membership? r.actor org).isSome = true ∧
      s.db.isLive org = true ∧ ∀ y ∈ s.sessions, y.phase.threatens org r.actor = false := by
  have hsiblings : (siblings.any fun org =>
      s.sessions.all fun y => !y.phase.threatens org r.actor) = true := by
    unfold DeleteOrg.spared at hspared
    simpa only [hx, hphase, Option.all_some] using hspared
  obtain ⟨org, horg, hsafe⟩ := List.any_eq_true.mp hsiblings
  have hunthreatened : ∀ y ∈ s.sessions, y.phase.threatens org r.actor = false := by
    intro y hy
    simpa using List.all_eq_true.mp hsafe y hy
  have hrequest : x.phase.request? = some r := by
    rw [hphase]
    rfl
  have hmem : org ∈ x.phase.siblings := by
    rw [hphase]
    exact horg
  obtain ⟨hmember, hne, hlive⟩ := h.seen i x r hx hrequest org hmem
  refine ⟨org, hne, hmember, ?_, hunthreatened⟩
  rcases hlive with hlive | ⟨j, r', ⟨y, hy, hdeleted⟩, horg', hactor⟩
  · exact hlive
  · have hthreat := hunthreatened y (List.mem_iff_getElem?.mpr ⟨j, hy⟩)
    rw [hdeleted] at hthreat
    simp [Phase.threatens, Phase.request?, Phase.settled, horg', hactor] at hthreat

/-! ## From a delete on -/

/-- The organisation is live, and no other user's delete begun before slot `l` may take it; or one
begun since has. -/
def Holds (l : Nat) (s : State Db Key Write Phase) (user : UserId) (org : OrgId) : Prop :=
  (s.db.isLive org = true ∧ ∀ (j : Nat) (y : Session Key Write Phase), j < l →
    s.sessions[j]? = some y → y.phase.threatens org user = false) ∨
  ∃ j r, l ≤ j ∧ deleted s j r ∧ r.org = org

structure Since (l : Nat) (r : DeleteOrg) (s : State Db Key Write Phase) : Prop where
  kept : Kept s
  length : l ≤ s.sessions.length
  gone : s.db.isLive r.org = false
  holds : ∃ org, org ≠ r.org ∧ (s.db.membership? r.actor org).isSome = true ∧
    Holds l s r.actor org

variable {l : Nat}

theorem Holds.put (h : Holds l s user org) (hx : s.sessions[i]? = some x)
    (hnext : code.nextOf s x = some m)
    (hy : y.phase.threatens org user = true → x.phase.threatens org user = true) :
    Holds l (s.put i y) user org := by
  rcases h with ⟨hlive, hsafe⟩ | ⟨j, r, hj, hdeleted, hr⟩
  · refine .inl ⟨hlive, ?_⟩
    intro j z hj hz
    rcases getElem?_set_cases hz with ⟨rfl, rfl⟩ | ⟨-, hz⟩
    · rw [Bool.eq_false_iff]
      intro hthreat
      exact Bool.eq_false_iff.mp (hsafe _ x hj hx) (hy hthreat)
    · exact hsafe j z hj hz
  · exact .inr ⟨j, r, hj, deleted_put hx hnext hdeleted y, hr⟩

theorem Holds.committed (hlive : s.db.isLive org = true)
    (hsafe : ∀ (j : Nat) (y : Session Key Write Phase), j < l → s.sessions[j]? = some y →
      y.phase.threatens org user = false) (hne : org ≠ r.org) {siblings : List OrgId}
    {repointed : List (String × Option OrgId)}
    (hpending : x.pending = written (.commit r now siblings repointed)) :
    Holds l ({ s with db := code.view s.db x.pending }.put i ⟨.returned r .deleted, [], []⟩) user
      org := by
  refine .inl ⟨?_, ?_⟩
  · show (code.view s.db x.pending).isLive org = true
    rw [hpending, isLive_view, hlive, bne_iff_ne.mpr hne]
    rfl
  · intro j z hj hz
    rcases getElem?_set_cases hz with ⟨-, rfl⟩ | ⟨-, hz⟩
    · simp [Phase.threatens, Phase.request?, hne.symm]
    · exact hsafe j z hj hz

theorem Since.step (h : Since l r s) (hspared : spared s e = true) (heq : code.step s e = some s') :
    Since l r s' := by
  have hkept := h.kept.step heq
  obtain ⟨org, hne, hmember, hholds⟩ := h.holds
  cases Code.stepped heq with
  | begin request =>
    have hlen : ∀ y : Session Key Write Phase, l ≤ (s.sessions ++ [y]).length := by
      intro y
      rw [List.length_append]
      exact Nat.le_add_right_of_le h.length
    refine ⟨hkept, hlen _, h.gone, org, hne, hmember, ?_⟩
    rcases hholds with ⟨hlive, hsafe⟩ | ⟨j, r', hj, ⟨y, hy, hdeleted⟩, hr'⟩
    · refine .inl ⟨hlive, ?_⟩
      intro j z hj hz
      rcases getElem?_snoc_cases hz with hz | ⟨rfl, -⟩
      · exact hsafe j z hj hz
      · exact absurd h.length (Nat.not_le.mpr hj)
    · refine .inr ⟨j, r', hj, ⟨y, ?_, hdeleted⟩, hr'⟩
      exact (List.getElem?_append_left (List.getElem?_eq_some_iff.mp hy).1).trans hy
  | @run i x keys writes q hx hnext hfree =>
    obtain ⟨hrequest, hsettled, -, -⟩ := next_run hnext
    refine ⟨hkept, (State.length_put ..).symm ▸ h.length, h.gone, org, hne, hmember, hholds.put hx hnext ?_⟩
    intro hthreat
    unfold Phase.threatens at hthreat ⊢
    rw [hrequest, Bool.and_eq_true_iff] at hthreat
    rw [hthreat.1, hsettled]
    rfl
  | @commit i x q hx hnext =>
    obtain ⟨r', now, siblings, repointed, hphase, rfl⟩ := next_commit hnext
    have hpending : x.pending = written (.commit r' now siblings repointed) :=
      hphase ▸ h.kept.traced.pending _ _ hx
    have hgone : (code.view s.db x.pending).isLive r.org = false := by
      rw [hpending, isLive_view, h.gone]
      rfl
    have hmembers : ∀ {org'}, (s.db.membership? r.actor org').isSome = true →
        ((code.view s.db x.pending).membership? r.actor org').isSome = true := by
      intro org' hmember
      rw [hpending, membership?_view]
      exact hmember
    have hlen : l ≤ (s.sessions.set i ⟨.returned r' .deleted, [], []⟩).length := by
      simpa using h.length
    rcases hholds with ⟨hlive, hsafe⟩ | ⟨j, r'', hj, hdeleted, hr''⟩
    · by_cases horg : org = r'.org
      · by_cases hi : l ≤ i
        · refine ⟨hkept, hlen, hgone, org, hne, hmembers hmember, .inr ?_⟩
          refine ⟨i, r', hi, ⟨_, List.getElem?_set_self ?_, rfl⟩, horg.symm⟩
          exact (List.getElem?_eq_some_iff.mp hx).1
        · -- the actor deletes it
          have hactor : r'.actor = r.actor := by
            have hthreat := hsafe i x (Nat.not_le.mp hi) hx
            rw [hphase] at hthreat
            simpa [Phase.threatens, Phase.request?, Phase.settled, horg] using hthreat
          obtain ⟨org', hne', hmember', hlive', hsafe'⟩ := h.kept.spared hspared hx hphase
          rw [hactor] at hmember' hsafe'
          have hother : org' ≠ r.org := by
            rintro rfl
            rw [h.gone] at hlive'
            cases hlive'
          refine ⟨hkept, hlen, hgone, org', hother, hmembers hmember', ?_⟩
          refine Holds.committed hlive' ?_ hne' hpending
          exact fun j y _ hy => hsafe' y (List.mem_iff_getElem?.mpr ⟨j, hy⟩)
      · exact ⟨hkept, hlen, hgone, org, hne, hmembers hmember,
          Holds.committed hlive hsafe horg hpending⟩
    · exact ⟨hkept, hlen, hgone, org, hne, hmembers hmember,
        .inr ⟨j, r'', hj, deleted_put hx hnext hdeleted _, hr''⟩⟩
  | rollback hx hnext =>
    obtain ⟨r', outcome, hdeleted, rfl⟩ := next_rollback hnext
    refine ⟨hkept, (State.length_put ..).symm ▸ h.length, h.gone, org, hne, hmember, hholds.put hx hnext ?_⟩
    intro hthreat
    simp [Phase.threatens, Phase.settled, hdeleted] at hthreat
  | abort hx hnext =>
    refine ⟨hkept, (State.length_put ..).symm ▸ h.length, h.gone, org, hne, hmember, hholds.put hx hnext ?_⟩
    intro hthreat
    cases hthreat
  | outer elapsed => exact ⟨hkept, h.length, h.gone, org, hne, hmember, hholds⟩

end

/-- **A delete that is spared never strands its actor**: at any time after it has returned
`Deleted`, the actor is a member of another organisation that is live, or that a call begun since
has deleted. -/
theorem deleter_keeps_an_org {s₀ s s' t : State Db Key Write Phase} {e : Event DeleteOrg Nat}
    {i : Nat} {r : DeleteOrg} (hidle : s₀.sessions = [])
    (hrun : Run code.step (fun s e => spared s e = true) s₀ s) (hspared : spared s e = true)
    (hstep : code.step s e = some s') (hnew : ¬deleted s i r) (hdeleted : deleted s' i r)
    (hrest : Run code.step (fun s e => spared s e = true) s' t) :
    ∃ org, org ≠ r.org ∧ (t.db.membership? r.actor org).isSome = true ∧
      (t.db.isLive org = true ∨ ∃ j r', s'.sessions.length ≤ j ∧ deleted t j r' ∧ r'.org = org) := by
  have hstart : Kept s₀ := by
    refine ⟨⟨?_, ?_, ?_⟩, ?_⟩ <;> intro i <;> simp [hidle]
  have hkept : Kept s := hrun.invariant hstart fun _ _ _ h _ heq => h.step heq
  have hkept' := hkept.step hstep
  obtain ⟨rfl, x, now, siblings, repointed, hx, hphase, rfl⟩ :=
    commits_of_deleted hstep hnew hdeleted
  obtain ⟨org, hne, hmember, hlive, hsafe⟩ := hkept.spared hspared hx hphase
  have hpending : x.pending = written (.commit r now siblings repointed) :=
    hphase ▸ hkept.traced.pending _ _ hx
  have hsince : Since s.sessions.length r
      ({ s with db := code.view s.db x.pending }.put i ⟨.returned r .deleted, [], []⟩) := by
    refine ⟨hkept', ?_, ?_, org, hne, ?_, ?_⟩
    · exact Nat.le_of_eq (State.length_put ..).symm
    · show (code.view s.db x.pending).isLive r.org = false
      rw [hpending, isLive_view, bne_self_eq_false, Bool.and_false]
    · show ((code.view s.db x.pending).membership? r.actor org).isSome = true
      rw [hpending, membership?_view]
      exact hmember
    · refine Holds.committed hlive ?_ hne hpending
      exact fun j y _ hy => hsafe y (List.mem_iff_getElem?.mpr ⟨j, hy⟩)
  have hend : Since s.sessions.length r t :=
    hrest.invariant hsince fun _ _ _ h hok heq => h.step hok heq
  obtain ⟨org', hne', hmember', hholds⟩ := hend.holds
  refine ⟨org', hne', hmember', ?_⟩
  rcases hholds with ⟨hlive', -⟩ | hlater
  · exact .inl hlive'
  · rw [State.length_put]
    exact .inr hlater

namespace Two

/-- Both are owners of all three organisations. -/
def db : Db where
  now := 0
  users := ⟨[⟨1, none⟩, ⟨2, none⟩], by decide⟩
  accounts := ⟨[⟨1, some 1⟩], by decide⟩
  orgs := ⟨[⟨10, "ten", "Ten", 1, none, 0⟩, ⟨20, "twenty", "Twenty", 1, none, 0⟩,
    ⟨30, "thirty", "Thirty", 1, none, 0⟩], by decide⟩
  memberships := ⟨[⟨1, 10, .owner, 0⟩, ⟨1, 20, .owner, 0⟩, ⟨2, 10, .owner, 0⟩,
    ⟨2, 20, .owner, 0⟩, ⟨1, 30, .owner, 0⟩, ⟨2, 30, .owner, 0⟩], by decide⟩
  sessions := ⟨[⟨"a", 1, some 10, 1⟩], by decide⟩
  targets := .empty
  heartbeats := .empty
  resources := []
  audit := []
  purgeQueue := .empty
  measurements := []

/-- Without the third. -/
def pair : Db := db.apply (.setOrgDeleted 30 (some 0) 0)

/-- Each deletes one of the pair, and both probe before either has. -/
def before : List (Event DeleteOrg Nat) :=
  [.begin ⟨10, 1⟩, .begin ⟨20, 2⟩, .go 0, .go 1, .go 0, .go 1, .go 0, .go 1, .go 0, .go 0, .go 0]

def after : List (Event DeleteOrg Nat) := [.go 1, .go 1, .go 1, .go 1]

end Two

theorem deleter_keeps_an_org_third : ∃ s' t : State Db Key Write Phase, deleted t 0 ⟨10, 1⟩ ∧ deleted t 1 ⟨20, 2⟩ ∧
    ∃ org, org ≠ 10 ∧ (t.db.membership? 1 org).isSome = true ∧
      (t.db.isLive org = true ∨
        ∃ j r', s'.sessions.length ≤ j ∧ deleted t j r' ∧ r'.org = org) := by
  obtain ⟨s, s', t, hrun, hstep, hrest, hend⟩ := exists_runs_of_steps
    (P := fun s s' t => decide (¬deleted s 0 ⟨10, 1⟩ ∧ deleted s' 0 ⟨10, 1⟩ ∧
      deleted t 0 ⟨10, 1⟩ ∧ deleted t 1 ⟨20, 2⟩))
    (show ((steps (guarded code.step spared) ⟨Two.db, []⟩ Two.before).any fun s =>
      (guarded code.step spared s (.go 0)).any fun s' =>
        (steps (guarded code.step spared) s' Two.after).any fun t =>
          decide (¬deleted s 0 ⟨10, 1⟩ ∧ deleted s' 0 ⟨10, 1⟩ ∧
            deleted t 0 ⟨10, 1⟩ ∧ deleted t 1 ⟨20, 2⟩)) = true by decide +kernel)
  obtain ⟨hnew, hdeleted, hone, htwo⟩ := of_decide_eq_true hend
  obtain ⟨hspared, hstep⟩ := guarded_eq_some.1 hstep
  have hallowed : ∀ (u : State Db Key Write Phase) (e : Event DeleteOrg Nat),
      spared u e = true → spared u e = true := fun _ _ h => h
  exact ⟨s', t, hone, htwo, deleter_keeps_an_org rfl (hrun.unguard hallowed) hspared hstep hnew
    hdeleted (hrest.unguard hallowed)⟩

/-- Each call has deleted the organisation that the other's probe saw. -/
theorem deleters_stranded : ¬ ∀ (s₀ s s' t : State Db Key Write Phase) (e : Event DeleteOrg Nat)
    (i : Nat) (r : DeleteOrg), s₀.sessions = [] → Run code.step (fun _ _ => True) s₀ s →
    code.step s e = some s' → ¬deleted s i r → deleted s' i r →
    Run code.step (fun _ _ => True) s' t →
    ∃ org, org ≠ r.org ∧ (t.db.membership? r.actor org).isSome = true ∧
      (t.db.isLive org = true ∨
        ∃ j r', s'.sessions.length ≤ j ∧ deleted t j r' ∧ r'.org = org) := by
  intro h
  obtain ⟨s, s', t, hrun, hstep, hrest, hend⟩ := exists_runs_of_steps
    (P := fun s s' t => decide (¬deleted s 0 ⟨10, 1⟩ ∧ deleted s' 0 ⟨10, 1⟩ ∧
      t.sessions.length ≤ s'.sessions.length ∧ t.db.siblings 1 10 = []))
    (show ((steps code.step ⟨Two.pair, []⟩ Two.before).any fun s =>
      (code.step s (.go 0)).any fun s' =>
        (steps code.step s' Two.after).any fun t =>
          decide (¬deleted s 0 ⟨10, 1⟩ ∧ deleted s' 0 ⟨10, 1⟩ ∧
            t.sessions.length ≤ s'.sessions.length ∧ t.db.siblings 1 10 = [])) = true by
      decide +kernel)
  obtain ⟨hnew, hdeleted, hlength, hnone⟩ := of_decide_eq_true hend
  obtain ⟨org, hne, hmember, hlive | ⟨j, r', hj, ⟨y, hy, -⟩, -⟩⟩ :=
    h _ s s' t (.go 0) 0 ⟨10, 1⟩ rfl hrun hstep hnew hdeleted hrest
  · have hmem : org ∈ t.db.siblings 1 10 := Db.mem_siblings.2 ⟨hmember, hne, hlive⟩
    rw [hnone] at hmem
    cases hmem
  · have hlt := (List.getElem?_eq_some_iff.mp hy).1
    exact absurd (Nat.lt_of_lt_of_le hlt hlength) (Nat.not_lt.mpr hj)

end DeleteOrg

end Uptimepage.Orgs
