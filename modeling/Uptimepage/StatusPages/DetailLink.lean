import Uptimepage.Async.Tasks
import Uptimepage.Domain.Incident
import Uptimepage.Sql.Rows

/-!
# Detail links of status pages

A component with a detail link refers to a share of its monitor, minted by `ensure_detail_share`.
Removing the component revokes the share it read before; deleting the page drops the components
and revokes nothing, so that a monitor on no page is still read through its link
(`detail_link_outlives_page`).  `detail_links_die` shows what else it takes.
-/

namespace Uptimepage.StatusPages

open Async Sql

abbrev StatusPageId := Uuid
abbrev MonitorShareId := Uuid

/-- A row of `targets`, as far as a share is resolved through it. -/
structure Monitor where
  id : Uuid
  orgId : OrgId
  planHeld : Bool
deriving DecidableEq

structure StatusPage where
  id : StatusPageId
  orgId : OrgId
deriving DecidableEq

/-- A row of `status_page_components`. -/
structure Component where
  pageId : StatusPageId
  targetId : Uuid
  orgId : OrgId
  detailLinkEnabled : Bool
  shareId : Option MonitorShareId
deriving DecidableEq

/-- A row of `monitor_shares`.  `minted` is not stored: it tells the shares of
`ensure_detail_share` from those of an operator. -/
structure MonitorShare where
  id : MonitorShareId
  orgId : OrgId
  targetId : Uuid
  tokenHash : String
  expiresAt : Option Time
  revokedAt : Option Time
  minted : Bool
deriving DecidableEq

namespace Component

def key (c : Component) : StatusPageId × Uuid := (c.pageId, c.targetId)

def curate (detail : Option Bool) (c : Component) : Component :=
  { c with detailLinkEnabled := detail.getD c.detailLinkEnabled }

def attach (share : MonitorShareId) (c : Component) : Component := { c with shareId := some share }

theorem curate_key (detail : Option Bool) (c : Component) : (c.curate detail).key = c.key := rfl

theorem attach_key (share : MonitorShareId) (c : Component) : (c.attach share).key = c.key := rfl

end Component

namespace MonitorShare

def revoke (now : Time) (r : MonitorShare) : MonitorShare := { r with revokedAt := some now }

theorem revoke_id (now : Time) (r : MonitorShare) : (r.revoke now).id = r.id := rfl

def mint (id : MonitorShareId) (org : OrgId) (target : Uuid) (tokenHash : String) : MonitorShare :=
  ⟨id, org, target, tokenHash, none, none, true⟩

def unexpired (r : MonitorShare) (now : Time) : Bool := r.expiresAt.all fun e => decide (e > now)

def live (r : MonitorShare) (now : Time) : Bool := r.revokedAt.isNone && r.unexpired now

end MonitorShare

structure Store where
  now : Time
  targets : Rows Monitor.id
  pages : Rows StatusPage.id
  components : Rows Component.key
  shares : Rows MonitorShare.id

/-- The accounts of the organisations, which organisations are live, and the plans. -/
structure Env where
  account : OrgId → Uuid
  liveOrg : OrgId → Bool
  maxPublicComponents : OrgId → Nat

/-! ## The stores -/

namespace Store

def hasTarget (st : Store) (org : OrgId) (target : Uuid) : Bool :=
  (st.targets.get? target).any fun t => t.orgId == org

def hasPage (st : Store) (org : OrgId) (page : StatusPageId) : Bool :=
  (st.pages.get? page).any fun p => p.orgId == org

def component? (st : Store) (org : OrgId) (page : StatusPageId) (target : Uuid) :
    Option Component :=
  (st.components.get? (page, target)).filter fun c => c.orgId == org

/-- The share of a component in `list_components`. -/
def shareOf (st : Store) (org : OrgId) (page : StatusPageId) (target : Uuid) :
    Option MonitorShareId :=
  (st.component? org page target).bind Component.shareId

inductive AddComponentOutcome
  | added (st : Store)
  | alreadyOnPage
  | overCap (used : Nat)
  | notFound

/-- The monitors that an account publishes. -/
def pooled (env : Env) (st : Store) (org : OrgId) : List Uuid :=
  ((st.components.rows.filter fun c =>
    env.account c.orgId == env.account org && env.liveOrg c.orgId).map Component.targetId).dedup

/-- A monitor that is published already is free. -/
def cost (env : Env) (st : Store) (org : OrgId) (target : Uuid) : Nat :=
  if (st.pooled env org).contains target then 0 else 1

def addComponent (env : Env) (st : Store) (org : OrgId) (page : StatusPageId) (target : Uuid)
    (detail : Bool) : AddComponentOutcome :=
  if !st.hasPage org page || !st.hasTarget org target then .notFound
  else if (st.components.get? (page, target)).isSome then .alreadyOnPage
  else if env.maxPublicComponents org < (st.pooled env org).length + st.cost env org target then
    .overCap (st.pooled env org).length
  else .added { st with components := st.components.insert ⟨page, target, org, detail, none⟩ }

def updateComponent (st : Store) (org : OrgId) (page : StatusPageId) (target : Uuid)
    (detail : Option Bool) : Store :=
  { st with
    components := st.components.update
      (fun c => c.pageId == page && c.targetId == target && c.orgId == org)
      (Component.curate detail) (Component.curate_key detail) }

/-- The share of a component becomes `share` if it is still the expected one; `none` when no row
was updated. -/
def attachShare (st : Store) (org : OrgId) (page : StatusPageId) (target : Uuid)
    (expected : Option MonitorShareId) (share : MonitorShareId) : Option Store :=
  let matching : Component → Bool := fun c =>
    c.pageId == page && c.targetId == target && c.orgId == org && c.shareId == expected
  if st.components.rows.any matching then
    some { st with
      components := st.components.update matching (Component.attach share)
        (Component.attach_key share) }
  else none

def removeComponent (st : Store) (org : OrgId) (page : StatusPageId) (target : Uuid) : Store :=
  { st with
    components := st.components.delete
      fun c => c.pageId == page && c.targetId == target && c.orgId == org }

/-- The components of a page go with it. -/
def deletePage (st : Store) (page : StatusPageId) : Store :=
  { st with
    pages := st.pages.delete fun p => p.id == page
    components := st.components.delete fun c => c.pageId == page }

/-- `create` without caps; `none` when the monitor is not found. -/
def createShare (st : Store) (org : OrgId) (target : Uuid) (id : MonitorShareId)
    (tokenHash : String) : Option Store :=
  if st.hasTarget org target then
    some { st with shares := st.shares.insert (.mint id org target tokenHash) }
  else none

/-- The share is one of `list_for_target` and has not expired. -/
def shareLive (st : Store) (org : OrgId) (target : Uuid) (share : MonitorShareId) : Bool :=
  (st.shares.get? share).any fun r =>
    r.orgId == org && r.targetId == target && r.live st.now

def revoke (st : Store) (org : OrgId) (target : Uuid) (share : MonitorShareId) : Store :=
  { st with
    shares := st.shares.update
      (fun r => r.id == share && r.orgId == org && r.targetId == target && r.revokedAt.isNone)
      (MonitorShare.revoke st.now) (MonitorShare.revoke_id st.now) }

def resolveActive (env : Env) (st : Store) (tokenHash : String) : Option MonitorShare :=
  st.shares.rows.find? fun r =>
    r.tokenHash == tokenHash && env.liveOrg r.orgId &&
      ((st.targets.get? r.targetId).any fun t => t.orgId == r.orgId && !t.planHeld) &&
      r.live st.now

end Store

/-! ## The handlers -/

inductive Request
  | addComponent (org : OrgId) (page : StatusPageId) (target : Uuid) (detail : Bool)
  | updateComponent (org : OrgId) (page : StatusPageId) (target : Uuid) (detail : Option Bool)
  | removeComponent (org : OrgId) (page : StatusPageId) (target : Uuid)
  | deletePage (org : OrgId) (page : StatusPageId)
  | revokeShare (org : OrgId) (target : Uuid) (share : MonitorShareId)
deriving DecidableEq

inductive Phase
  | adding (org : OrgId) (page : StatusPageId) (target : Uuid) (detail : Bool)
  | updating (org : OrgId) (page : StatusPageId) (target : Uuid) (detail : Option Bool)
  /-- `ensure_detail_share` reads the component's share. -/
  | listing (org : OrgId) (page : StatusPageId) (target : Uuid)
  | checking (org : OrgId) (page : StatusPageId) (target : Uuid) (existing : MonitorShareId)
  | creating (org : OrgId) (page : StatusPageId) (target : Uuid)
      (existing : Option MonitorShareId)
  | attaching (org : OrgId) (page : StatusPageId) (target : Uuid)
      (existing : Option MonitorShareId) (share : MonitorShareId)
  /-- The swap was lost: the share it minted is revoked. -/
  | undoing (org : OrgId) (target : Uuid) (share : MonitorShareId)
  /-- `remove_component` reads the backing share. -/
  | reading (org : OrgId) (page : StatusPageId) (target : Uuid)
  | removing (org : OrgId) (page : StatusPageId) (target : Uuid)
      (share : Option MonitorShareId)
  | revoking (org : OrgId) (target : Uuid) (share : MonitorShareId)
  | deleting (org : OrgId) (page : StatusPageId)
  /-- The revoke of an operator. -/
  | withdrawing (org : OrgId) (target : Uuid) (share : MonitorShareId)
  | done
deriving DecidableEq

inductive Choice
  | ok
  /-- A share is created, with its id and token. -/
  | mint (id : MonitorShareId) (tokenHash : String)
  /-- The call fails, or the process ends before it. -/
  | fails
deriving DecidableEq

def Request.first : Request → Phase
  | .addComponent org page target detail => .adding org page target detail
  | .updateComponent org page target detail => .updating org page target detail
  | .removeComponent org page target => .reading org page target
  | .deletePage org page => .deleting org page
  | .revokeShare org target share => .withdrawing org target share

/-- `remove_component` revokes the share that it read. -/
def revokeRead (org : OrgId) (target : Uuid) : Option MonitorShareId → Phase
  | some share => .revoking org target share
  | none => .done

def next (env : Env) (st : Store) : Phase → Choice → Option (Store × Phase)
  | .done, _ => none
  | _, .fails => some (st, .done)
  | .adding org page target detail, .ok =>
    match st.addComponent env org page target detail with
    | .added st' => some (st', if detail then .listing org page target else .done)
    | _ => some (st, .done)
  | .updating org page target detail, .ok =>
    if (st.component? org page target).isSome then
      some (st.updateComponent org page target detail,
        if detail == some true then .listing org page target else .done)
    else some (st, .done)
  | .listing org page target, .ok =>
    some (st, match st.shareOf org page target with
      | some existing => .checking org page target existing
      | none => .creating org page target none)
  | .checking org page target existing, .ok =>
    some (st, if st.shareLive org target existing then .done
      else .creating org page target (some existing))
  | .creating org page target existing, .mint id tokenHash =>
    -- ids and tokens are drawn anew
    if (st.shares.get? id).isSome || st.shares.rows.any fun r => r.tokenHash == tokenHash then none
    else
      match st.createShare org target id tokenHash with
      | some st' => some (st', .attaching org page target existing id)
      | none => some (st, .done)
  | .attaching org page target existing share, .ok =>
    match st.attachShare org page target existing share with
    | some st' => some (st', .done)
    | none => some (st, .undoing org target share)
  | .undoing org target share, .ok | .revoking org target share, .ok
  | .withdrawing org target share, .ok => some (st.revoke org target share, .done)
  | .reading org page target, .ok => some (st, .removing org page target (st.shareOf org page target))
  | .removing org page target share, .ok =>
    if (st.component? org page target).isSome then
      some (st.removeComponent org page target, revokeRead org target share)
    else some (st, .done)
  | .deleting org page, .ok =>
    if st.hasPage org page then some (st.deletePage page, .done) else some (st, .done)
  | _, _ => none

def program (env : Env) : Program Store Phase Request Choice Nat where
  first := Request.first
  next := next env
  outer := fun st passed => { st with now := st.now + passed }

/-! ## What keeps shares and components together -/

/-- The share has not been revoked. -/
def Store.standing (st : Store) (share : MonitorShareId) : Bool :=
  (st.shares.get? share).any fun r => r.revokedAt.isNone

/-- The share that a request has yet to attach or revoke. -/
def Phase.holds : Phase → Option MonitorShareId
  | attaching _ _ _ _ share | undoing _ _ share | revoking _ _ share => some share
  | _ => none

/-- No page is deleted while a component of it refers to a standing share; a component that does
is removed by a request that read this share; and no request fails that has such a share to
attach or revoke. -/
def tidy (s : Pooled Store Phase) : Act Request Choice Nat → Bool
  | .go i choice =>
    match s.tasks[i]?, choice with
    | some (.deleting org page), .ok =>
      !s.store.hasPage org page || s.store.components.rows.all fun c =>
        c.pageId != page || !c.shareId.any s.store.standing
    | some (.removing org page target share), .ok =>
      (s.store.shareOf org page target).all fun current =>
        !s.store.standing current || share == some current
    | some p, .fails => !p.holds.any s.store.standing
    | _, _ => true
  | _ => true

/-! ## The invariant -/

/-- The share was minted for the monitor. -/
def Minted (st : Store) (org : OrgId) (target : Uuid) (share : MonitorShareId) : Prop :=
  ∃ r ∈ st.shares.rows, r.id = share ∧ r.orgId = org ∧ r.targetId = target ∧
    r.expiresAt = none ∧ r.minted = true

def Revoked (st : Store) (share : MonitorShareId) : Prop :=
  ∃ r ∈ st.shares.rows, r.id = share ∧ r.revokedAt ≠ none

/-- A request names shares of its monitor; the one that it replaces is revoked. -/
def Phase.Fits (st : Store) : Phase → Prop
  | checking org _ target existing => Minted st org target existing
  | creating _ _ _ existing => ∀ share, existing = some share → Revoked st share
  | attaching org _ target existing share =>
    (∀ old, existing = some old → Revoked st old) ∧ Minted st org target share
  | removing org _ target share => ∀ current, share = some current → Minted st org target current
  | undoing org target share | revoking org target share => Minted st org target share
  | _ => True

structure Linked (s : Pooled Store Phase) : Prop where
  fits : ∀ q ∈ s.tasks, q.Fits s.store
  pages : ∀ c ∈ s.store.components.rows, ∃ p ∈ s.store.pages.rows, p.id = c.pageId
  shares : ∀ c ∈ s.store.components.rows, ∀ share, c.shareId = some share →
    Minted s.store c.orgId c.targetId share
  referenced : ∀ r ∈ s.store.shares.rows, r.minted = true → r.revokedAt = none →
    (∃ c ∈ s.store.components.rows, c.shareId = some r.id) ∨ ∃ q ∈ s.tasks, q.holds = some r.id

section

variable {env : Env} {st st' : Store} {org : OrgId} {page : StatusPageId} {target : Uuid}
  {share : MonitorShareId}

theorem component?_eq_some {c : Component} : st.component? org page target = some c ↔
    c ∈ st.components.rows ∧ c.pageId = page ∧ c.targetId = target ∧ c.orgId = org := by
  unfold Store.component?
  rw [Option.filter_eq_some_iff, Rows.get?_eq_some, beq_iff_eq, Component.key, Prod.mk.injEq,
    and_assoc, and_assoc]

theorem standing_iff :
    st.standing share = true ↔ ∃ r ∈ st.shares.rows, r.id = share ∧ r.revokedAt = none := by
  unfold Store.standing
  rw [Option.any_eq_true]
  constructor
  · rintro ⟨r, hr, hnone⟩
    obtain ⟨hmem, hid⟩ := Rows.get?_eq_some.1 hr
    exact ⟨r, hmem, hid, Option.isNone_iff_eq_none.mp hnone⟩
  · rintro ⟨r, hmem, hid, hnone⟩
    exact ⟨r, Rows.get?_eq_some.2 ⟨hmem, hid⟩, Option.isNone_iff_eq_none.mpr hnone⟩

theorem Revoked.row (h : Revoked st share) {r : MonitorShare} (hr : r ∈ st.shares.rows)
    (hid : r.id = share) : r.revokedAt ≠ none := by
  obtain ⟨r', hr', hid', hrevoked⟩ := h
  rwa [Rows.eq_of_key hr hr' (hid.trans hid'.symm)]

theorem Minted.row (h : Minted st org target share) {r : MonitorShare}
    (hr : r ∈ st.shares.rows) (hid : r.id = share) :
    r.orgId = org ∧ r.targetId = target ∧ r.expiresAt = none := by
  obtain ⟨r', hr', hid', horg, htarget, hexpires, -⟩ := h
  rw [Rows.eq_of_key hr hr' (hid.trans hid'.symm)]
  exact ⟨horg, htarget, hexpires⟩

theorem Minted.revoked (h : Minted st org target share)
    (hlive : st.shareLive org target share = false) : Revoked st share := by
  obtain ⟨r, hr, hid, horg, htarget, hexpires, -⟩ := h
  refine ⟨r, hr, hid, ?_⟩
  intro hnone
  have hget : st.shares.get? share = some r := Rows.get?_eq_some.2 ⟨hr, hid⟩
  simp [Store.shareLive, hget, horg, htarget, MonitorShare.live, hnone, MonitorShare.unexpired,
    hexpires] at hlive

/-! ## What the stores do to shares -/

/-- Shares are added and revoked. -/
def Grows (st st' : Store) : Prop :=
  ∀ r ∈ st.shares.rows, r ∈ st'.shares.rows ∨ ∃ now, r.revoke now ∈ st'.shares.rows

theorem Grows.of_eq (h : st'.shares = st.shares) : Grows st st' := by
  intro r hr
  rw [h]
  exact .inl hr

theorem Grows.minted (h : Grows st st') (hm : Minted st org target share) :
    Minted st' org target share := by
  obtain ⟨r, hr, hrest⟩ := hm
  rcases h r hr with hr' | ⟨now, hr'⟩
  · exact ⟨r, hr', hrest⟩
  · exact ⟨r.revoke now, hr', hrest⟩

theorem Grows.revoked (h : Grows st st') (hr : Revoked st share) : Revoked st' share := by
  obtain ⟨r, hr, hid, hrevoked⟩ := hr
  rcases h r hr with hr' | ⟨now, hr'⟩
  · exact ⟨r, hr', hid, hrevoked⟩
  · exact ⟨r.revoke now, hr', hid, Option.some_ne_none now⟩

theorem Grows.fits (h : Grows st st') {q : Phase} (hq : q.Fits st) : q.Fits st' := by
  cases q with
  | checking org page target existing => exact h.minted hq
  | creating org page target existing => exact fun share hs => h.revoked (hq share hs)
  | attaching org page target existing share =>
    exact ⟨fun old ho => h.revoked (hq.1 old ho), h.minted hq.2⟩
  | removing org page target share => exact fun current hc => h.minted (hq current hc)
  | undoing org target share | revoking org target share => exact h.minted hq
  | _ => trivial

theorem grows_revoke : Grows st (st.revoke org target share) := by
  intro r hr
  by_cases hmatch : (r.id == share && r.orgId == org && r.targetId == target &&
      r.revokedAt.isNone) = true
  · exact .inr ⟨st.now, Rows.mem_update_of_pos (MonitorShare.revoke_id st.now) hr hmatch⟩
  · exact .inl (Rows.mem_update_of_neg (MonitorShare.revoke_id st.now) hr
      (Bool.eq_false_iff.mpr hmatch))

theorem standing_of_revoke {r : MonitorShare} (hr : r ∈ (st.revoke org target share).shares.rows)
    (hnone : r.revokedAt = none) :
    r ∈ st.shares.rows ∧ ¬(r.id = share ∧ r.orgId = org ∧ r.targetId = target) := by
  obtain ⟨r₀, hr₀, heq⟩ := List.mem_map.mp hr
  by_cases hmatch : (r₀.id == share && r₀.orgId == org && r₀.targetId == target &&
      r₀.revokedAt.isNone) = true
  · rw [if_pos hmatch] at heq
    subst heq
    cases hnone
  · rw [if_neg hmatch] at heq
    subst heq
    refine ⟨hr₀, ?_⟩
    rintro ⟨rfl, rfl, rfl⟩
    simp [hnone] at hmatch

end

/-! ## Steps -/

section

variable {env : Env} {s s' : Pooled Store Phase} {i : Nat} {p p' : Phase} {st : Store}
  {org : OrgId} {page : StatusPageId} {target : Uuid} {share : MonitorShareId}

theorem Linked.moved (h : Linked s) (hp : s.tasks[i]? = some p) (hgrows : Grows s.store st)
    (hfits : p'.Fits st)
    (hpages : ∀ c ∈ st.components.rows, ∃ q ∈ st.pages.rows, q.id = c.pageId)
    (hshares : ∀ c ∈ st.components.rows, ∀ share, c.shareId = some share →
      Minted st c.orgId c.targetId share)
    (href : ∀ r ∈ st.shares.rows, r.minted = true → r.revokedAt = none →
      (∃ c ∈ st.components.rows, c.shareId = some r.id) ∨ p'.holds = some r.id ∨
        (p.holds ≠ some r.id ∧ ∃ q ∈ s.tasks, q.holds = some r.id)) :
    Linked ⟨st, s.tasks.set i p'⟩ := by
  refine ⟨?_, hpages, hshares, ?_⟩
  · exact forall_mem_set (fun q hq => hgrows.fits (h.fits q hq)) hfits
  · intro r hr hminted hnone
    rcases href r hr hminted hnone with hcomponent | hnew | ⟨hold, hex⟩
    · exact .inl hcomponent
    · exact .inr ⟨p', mem_set_self hp p', hnew⟩
    · exact .inr (exists_mem_set hp hold hex)

theorem Linked.quiet (h : Linked s) (hp : s.tasks[i]? = some p) (hfits : p'.Fits s.store)
    (hholds : ∀ share, p.holds = some share → s.store.standing share = true →
      p'.holds = some share) : Linked ⟨s.store, s.tasks.set i p'⟩ := by
  refine h.moved hp (.of_eq rfl) hfits h.pages h.shares ?_
  intro r hr hminted hnone
  rcases h.referenced r hr hminted hnone with hcomponent | hex
  · exact .inl hcomponent
  · by_cases hold : p.holds = some r.id
    · exact .inr (.inl (hholds r.id hold (standing_iff.2 ⟨r, hr, rfl, hnone⟩)))
    · exact .inr (.inr ⟨hold, hex⟩)

theorem Linked.curated (h : Linked s) (hp : s.tasks[i]? = some p) (hsame : st.shares = s.store.shares)
    (hfits : p'.Fits st) (hnone : p.holds = none)
    (hpages : ∀ c ∈ st.components.rows, ∃ q ∈ st.pages.rows, q.id = c.pageId)
    (hshares : ∀ c ∈ st.components.rows, ∀ share, c.shareId = some share →
      Minted s.store c.orgId c.targetId share)
    (href : ∀ c ∈ s.store.components.rows, ∀ share, c.shareId = some share →
      s.store.standing share = true →
        (∃ c' ∈ st.components.rows, c'.shareId = some share) ∨ p'.holds = some share) :
    Linked ⟨st, s.tasks.set i p'⟩ := by
  have hgrows : Grows s.store st := .of_eq hsame
  refine h.moved hp hgrows hfits hpages ?_ ?_
  · intro c hc share hs
    exact hgrows.minted (hshares c hc share hs)
  · intro r hr hminted hunrevoked
    rw [hsame] at hr
    rcases h.referenced r hr hminted hunrevoked with ⟨c, hc, hcs⟩ | hex
    · have hstanding := standing_iff.2 ⟨r, hr, rfl, hunrevoked⟩
      rcases href c hc r.id hcs hstanding with hcomponent | hnew
      · exact .inl hcomponent
      · exact .inr (.inl hnew)
    · refine .inr (.inr ⟨?_, hex⟩)
      rw [hnone]
      exact fun heq => nomatch heq

theorem hasPage_iff : s.store.hasPage org page = true ↔
    ∃ q ∈ s.store.pages.rows, q.id = page ∧ q.orgId = org := by
  unfold Store.hasPage
  rw [Option.any_eq_true]
  constructor
  · rintro ⟨q, hq, horg⟩
    obtain ⟨hmem, hid⟩ := Rows.get?_eq_some.1 hq
    exact ⟨q, hmem, hid, beq_iff_eq.mp horg⟩
  · rintro ⟨q, hmem, hid, horg⟩
    exact ⟨q, Rows.get?_eq_some.2 ⟨hmem, hid⟩, beq_iff_eq.mpr horg⟩

theorem Linked.added (h : Linked s) {detail : Bool}
    (hp : s.tasks[i]? = some (.adding org page target detail))
    (hadded : s.store.addComponent env org page target detail = .added st) :
    Linked ⟨st, s.tasks.set i (if detail then .listing org page target else .done)⟩ := by
  unfold Store.addComponent at hadded
  split at hadded
  · cases hadded
  · next hfound =>
    split at hadded
    · cases hadded
    · split at hadded
      · cases hadded
      · cases hadded
        have hpage : s.store.hasPage org page = true := by
          by_contra hmissing
          exact hfound (by simp [hmissing])
        obtain ⟨q, hq, hid, -⟩ := hasPage_iff.1 hpage
        refine h.curated hp rfl ?_ rfl ?_ ?_ ?_
        · split <;> trivial
        · intro c hc
          rcases Rows.mem_insert hc with hc | rfl
          · exact h.pages c hc
          · exact ⟨q, hq, hid⟩
        · intro c hc share hs
          rcases Rows.mem_insert hc with hc | rfl
          · exact h.shares c hc share hs
          · cases hs
        · intro c hc share hs _
          exact .inl ⟨c, Rows.mem_insert_of_mem hc, hs⟩

theorem Linked.updated (h : Linked s) {detail : Option Bool}
    (hp : s.tasks[i]? = some (.updating org page target detail)) :
    Linked ⟨s.store.updateComponent org page target detail,
      s.tasks.set i (if detail == some true then .listing org page target else .done)⟩ := by
  have hback : ∀ c' ∈ (s.store.updateComponent org page target detail).components.rows,
      ∃ c ∈ s.store.components.rows, c'.pageId = c.pageId ∧ c'.orgId = c.orgId ∧
        c'.targetId = c.targetId ∧ c'.shareId = c.shareId := by
    intro c' hc'
    rcases Table.mem_update hc' with hc | ⟨c, hc, -, rfl⟩
    · exact ⟨c', hc, rfl, rfl, rfl, rfl⟩
    · exact ⟨c, hc, rfl, rfl, rfl, rfl⟩
  refine h.curated hp rfl ?_ rfl ?_ ?_ ?_
  · split <;> trivial
  · intro c' hc'
    obtain ⟨c, hc, hpage, -⟩ := hback c' hc'
    rw [hpage]
    exact h.pages c hc
  · intro c' hc' share hs
    obtain ⟨c, hc, -, horg, htarget, hshare⟩ := hback c' hc'
    rw [horg, htarget]
    exact h.shares c hc share (hshare ▸ hs)
  · intro c hc share hs _
    left
    cases hmatch : c.pageId == page && c.targetId == target && c.orgId == org with
    | true =>
      exact ⟨c.curate detail, Rows.mem_update_of_pos (Component.curate_key detail) hc hmatch, hs⟩
    | false => exact ⟨c, Rows.mem_update_of_neg (Component.curate_key detail) hc hmatch, hs⟩

theorem Linked.created (h : Linked s) {existing : Option MonitorShareId} {tokenHash : String}
    (hp : s.tasks[i]? = some (.creating org page target existing))
    (hfresh : s.store.shares.get? share = none)
    (hcreated : s.store.createShare org target share tokenHash = some st) :
    Linked ⟨st, s.tasks.set i (.attaching org page target existing share)⟩ := by
  unfold Store.createShare at hcreated
  split at hcreated
  · cases hcreated
    have hgrows : Grows s.store { s.store with
        shares := s.store.shares.insert (.mint share org target tokenHash) } :=
      fun r hr => .inl (Rows.mem_insert_of_mem hr)
    have hmem : MonitorShare.mint share org target tokenHash ∈
        (s.store.shares.insert (.mint share org target tokenHash)).rows :=
      Rows.mem_insert_self hfresh
    have hfits := h.fits _ (List.mem_of_getElem? hp)
    refine h.moved hp hgrows ?_ h.pages ?_ ?_
    · refine ⟨fun old ho => hgrows.revoked (hfits old ho), ?_⟩
      exact ⟨_, hmem, rfl, rfl, rfl, rfl, rfl⟩
    · intro c hc old ho
      exact hgrows.minted (h.shares c hc old ho)
    · intro r hr hminted hnone
      rcases Rows.mem_insert hr with hr | rfl
      · rcases h.referenced r hr hminted hnone with hcomponent | hex
        · exact .inl hcomponent
        · exact .inr (.inr ⟨Option.some_ne_none _ ∘ Eq.symm, hex⟩)
      · exact .inr (.inl rfl)
  · cases hcreated

theorem Linked.attached (h : Linked s) {existing : Option MonitorShareId}
    (hp : s.tasks[i]? = some (.attaching org page target existing share))
    (hattached : s.store.attachShare org page target existing share = some st) :
    Linked ⟨st, s.tasks.set i .done⟩ := by
  unfold Store.attachShare at hattached
  simp only at hattached
  split at hattached
  · next hany =>
    cases hattached
    obtain ⟨hreplaced, hminted⟩ := h.fits _ (List.mem_of_getElem? hp)
    obtain ⟨c₀, hc₀, hmatch₀⟩ := List.any_eq_true.mp hany
    refine h.moved hp (.of_eq rfl) trivial ?_ ?_ ?_
    · intro c hc
      rcases Table.mem_update hc with hc | ⟨c', hc', -, rfl⟩
      · exact h.pages c hc
      · exact h.pages c' hc'
    · intro c hc share' hs
      rcases Table.mem_update hc with hc | ⟨c', hc', hmatch, rfl⟩
      · exact h.shares c hc share' hs
      · simp only [Bool.and_eq_true, beq_iff_eq] at hmatch
        obtain ⟨⟨⟨-, htarget⟩, horg⟩, -⟩ := hmatch
        obtain rfl : share = share' := Option.some.inj hs
        change Minted s.store c'.orgId c'.targetId share
        rw [htarget, horg]
        exact hminted
    · intro r hr hrminted hnone
      by_cases hnew : r.id = share
      · left
        refine ⟨c₀.attach share, Rows.mem_update_of_pos (Component.attach_key share) hc₀ hmatch₀, ?_⟩
        rw [hnew]
        rfl
      · rcases h.referenced r hr hrminted hnone with ⟨c, hc, hcs⟩ | hex
        · left
          refine ⟨c, Rows.mem_update_of_neg (Component.attach_key share) hc ?_, hcs⟩
          -- a component that is swapped referred to a revoked share
          rw [Bool.eq_false_iff]
          intro hmatch
          simp only [Bool.and_eq_true, beq_iff_eq] at hmatch
          have hexisting : existing = some r.id := hmatch.2.symm.trans hcs
          exact (hreplaced r.id hexisting).row hr rfl hnone
        · refine .inr (.inr ⟨?_, hex⟩)
          intro heq
          exact hnew (Option.some.inj heq).symm
  · cases hattached

theorem Linked.revoked (h : Linked s) (hp : s.tasks[i]? = some p)
    (hholds : ∀ held, p.holds = some held → held = share ∧ Minted s.store org target share) :
    Linked ⟨s.store.revoke org target share, s.tasks.set i .done⟩ := by
  have hgrows : Grows s.store (s.store.revoke org target share) := grows_revoke
  refine h.moved hp hgrows trivial h.pages ?_ ?_
  · intro c hc old ho
    exact hgrows.minted (h.shares c hc old ho)
  · intro r hr hminted hnone
    obtain ⟨hr₀, hother⟩ := standing_of_revoke hr hnone
    rcases h.referenced r hr₀ hminted hnone with hcomponent | hex
    · exact .inl hcomponent
    · refine .inr (.inr ⟨?_, hex⟩)
      intro heq
      obtain ⟨hid, hmine⟩ := hholds r.id heq
      obtain ⟨horg, htarget, -⟩ := hmine.row hr₀ hid
      exact hother ⟨hid, horg, htarget⟩

theorem shareOf_minted (h : Linked s) (hs : s.store.shareOf org page target = some share) :
    Minted s.store org target share := by
  obtain ⟨c, hc, hshare⟩ := Option.bind_eq_some_iff.mp hs
  obtain ⟨hmem, -, rfl, rfl⟩ := component?_eq_some.1 hc
  exact h.shares c hmem share hshare

theorem Linked.removed (h : Linked s) {share? : Option MonitorShareId}
    (hp : s.tasks[i]? = some (.removing org page target share?))
    (htidy : tidy s (.go i .ok) = true) :
    Linked ⟨s.store.removeComponent org page target,
      s.tasks.set i (revokeRead org target share?)⟩ := by
  have hfits := h.fits _ (List.mem_of_getElem? hp)
  refine h.curated hp rfl ?_ rfl ?_ ?_ ?_
  · cases share? with
    | none => trivial
    | some share => exact hfits share rfl
  · intro c hc
    exact h.pages c (Rows.mem_delete.1 hc).1
  · intro c hc
    exact h.shares c (Rows.mem_delete.1 hc).1
  · intro c hc share hs hstanding
    cases hmatch : c.pageId == page && c.targetId == target && c.orgId == org with
    | false => exact .inl ⟨c, Rows.mem_delete.2 ⟨hc, hmatch⟩, hs⟩
    | true =>
      right
      simp only [Bool.and_eq_true, beq_iff_eq] at hmatch
      obtain ⟨⟨hpage, htarget⟩, horg⟩ := hmatch
      have hof : s.store.shareOf org page target = some share := by
        unfold Store.shareOf
        rw [component?_eq_some.2 ⟨hc, hpage, htarget, horg⟩, Option.bind_some, hs]
      have hread : share? = some share := by
        simpa [tidy, hp, hof, hstanding] using htidy
      rw [hread]
      rfl

theorem Linked.deleted (h : Linked s) (hp : s.tasks[i]? = some (.deleting org page))
    (hpage : s.store.hasPage org page = true) (htidy : tidy s (.go i .ok) = true) :
    Linked ⟨s.store.deletePage page, s.tasks.set i .done⟩ := by
  refine h.curated hp rfl trivial rfl ?_ ?_ ?_
  · intro c hc
    obtain ⟨hmem, hother⟩ := Rows.mem_delete.1 hc
    obtain ⟨q, hq, hid⟩ := h.pages c hmem
    refine ⟨q, Rows.mem_delete.2 ⟨hq, ?_⟩, hid⟩
    rw [hid]
    exact hother
  · intro c hc
    exact h.shares c (Rows.mem_delete.1 hc).1
  · intro c hc share hs hstanding
    left
    refine ⟨c, Rows.mem_delete.2 ⟨hc, ?_⟩, hs⟩
    rw [beq_eq_false_iff_ne]
    intro heq
    simp only [tidy, hp, hpage, Bool.not_true, Bool.false_or, List.all_eq_true, Bool.or_eq_true,
      bne_iff_ne, ne_eq, Bool.not_eq_true'] at htidy
    rcases htidy c hc with hne | hnone
    · exact hne heq
    · rw [hs, Option.any_some, hstanding] at hnone
      cases hnone

theorem Linked.failed (h : Linked s) (hp : s.tasks[i]? = some p)
    (htidy : tidy s (.go i .fails) = true) : Linked ⟨s.store, s.tasks.set i .done⟩ := by
  refine h.quiet hp trivial ?_
  intro share hs hstanding
  exfalso
  have hnone : p.holds.any s.store.standing = false := by
    cases p with
    | deleting org page | removing org page target share => cases hs
    | _ => simpa [tidy, hp] using htidy
  rw [hs, Option.any_some, hstanding] at hnone
  cases hnone

theorem Linked.went (h : Linked s) {choice : Choice} (hp : s.tasks[i]? = some p)
    (hnext : next env s.store p choice = some (st, p')) (htidy : tidy s (.go i choice) = true) :
    Linked ⟨st, s.tasks.set i p'⟩ := by
  have hfits := h.fits p (List.mem_of_getElem? hp)
  cases choice with
  | fails =>
    have hfailed : st = s.store ∧ p' = .done := by
      cases p <;> cases hnext <;> exact ⟨rfl, rfl⟩
    obtain ⟨rfl, rfl⟩ := hfailed
    exact h.failed hp htidy
  | mint id tokenHash =>
    cases p with
    | creating org page target existing =>
      simp only [next] at hnext
      split at hnext
      · cases hnext
      · next hfresh =>
        have hnone : s.store.shares.get? id = none := by
          rw [Bool.or_eq_true, not_or, Option.not_isSome_iff_eq_none] at hfresh
          exact hfresh.1
        split at hnext
        · next st' hcreated =>
          cases hnext
          exact h.created hp hnone hcreated
        · cases hnext
          exact h.quiet hp trivial fun _ hs => nomatch hs
    | _ => cases hnext
  | ok =>
    cases p with
    | adding org page target detail =>
      simp only [next] at hnext
      split at hnext
      · next st' hadded =>
        cases hnext
        exact h.added hp hadded
      · cases hnext
        exact h.quiet hp trivial fun _ hs => nomatch hs
    | updating org page target detail =>
      simp only [next] at hnext
      split at hnext
      · cases hnext
        exact h.updated hp
      · cases hnext
        exact h.quiet hp trivial fun _ hs => nomatch hs
    | listing org page target =>
      cases hnext
      refine h.quiet hp ?_ fun _ hs => nomatch hs
      split
      · next existing hs => exact shareOf_minted h hs
      · exact fun _ hs => nomatch hs
    | checking org page target existing =>
      cases hnext
      refine h.quiet hp ?_ fun _ hs => nomatch hs
      split
      · trivial
      · next hlive =>
        rintro _ ⟨⟩
        exact hfits.revoked (Bool.eq_false_iff.mpr hlive)
    | creating org page target existing => cases hnext
    | attaching org page target existing share =>
      simp only [next] at hnext
      split at hnext
      · next st' hattached =>
        cases hnext
        exact h.attached hp hattached
      · cases hnext
        exact h.quiet hp hfits.2 fun _ hs _ => hs
    | undoing org target share | revoking org target share =>
      cases hnext
      refine h.revoked hp ?_
      rintro _ ⟨⟩
      exact ⟨rfl, hfits⟩
    | withdrawing org target share =>
      cases hnext
      exact h.revoked hp fun _ hs => nomatch hs
    | reading org page target =>
      cases hnext
      refine h.quiet hp ?_ fun _ hs => nomatch hs
      exact fun current hs => shareOf_minted h hs
    | removing org page target share =>
      simp only [next] at hnext
      split at hnext
      · cases hnext
        exact h.removed hp htidy
      · cases hnext
        exact h.quiet hp trivial fun _ hs => nomatch hs
    | deleting org page =>
      simp only [next] at hnext
      split at hnext
      · next hpage =>
        cases hnext
        exact h.deleted hp hpage htidy
      · cases hnext
        exact h.quiet hp trivial fun _ hs => nomatch hs
    | done => cases hnext

theorem Linked.step (h : Linked s) {e : Act Request Choice Nat} (htidy : tidy s e = true)
    (heq : (program env).step s e = some s') : Linked s' := by
  cases Program.stepped heq with
  | begin request =>
    refine ⟨?_, h.pages, h.shares, ?_⟩
    · intro q hq
      rcases List.mem_append.mp hq with hq | hq
      · exact h.fits q hq
      · rw [List.mem_singleton.mp hq]
        cases request <;> trivial
    · intro r hr hminted hnone
      refine (h.referenced r hr hminted hnone).imp_right ?_
      rintro ⟨q, hq, hholds⟩
      exact ⟨q, List.mem_append_left _ hq, hholds⟩
  | go hp hnext => exact h.went hp hnext htidy
  | outer passed => exact ⟨fun q hq => h.fits q hq, h.pages, h.shares, h.referenced⟩

/-- No request has been made, and every minted share stands for a component. -/
structure Sound (st : Store) : Prop where
  pages : ∀ c ∈ st.components.rows, ∃ p ∈ st.pages.rows, p.id = c.pageId
  shares : ∀ c ∈ st.components.rows, ∀ share, c.shareId = some share →
    Minted st c.orgId c.targetId share
  referenced : ∀ r ∈ st.shares.rows, r.minted = true → r.revokedAt = none →
    ∃ c ∈ st.components.rows, c.shareId = some r.id

theorem resolveActive_live {tokenHash : String} {r : MonitorShare}
    (h : st.resolveActive env tokenHash = some r) :
    r ∈ st.shares.rows ∧ r.live st.now = true := by
  unfold Store.resolveActive at h
  have hr := List.find?_some h
  exact ⟨List.mem_of_find?_eq_some h, (Bool.and_eq_true_iff.mp hr).2⟩

/-- **A detail link dies with its component**: when all requests have ended, a live minted share
is that of a component of a page, and no minted link of a monitor on no page resolves, as long
as no page is deleted over a standing share, none is missed by a removal, and none that a request
has to attach or revoke is lost by a failure. -/
theorem detail_links_die {s₀ : Pooled Store Phase} (hstart : Sound s₀.store)
    (hidle : s₀.tasks = []) (hrun : Run (program env).step (fun s e => tidy s e = true) s₀ s)
    (hdone : ∀ p ∈ s.tasks, p = .done) :
    (∀ r ∈ s.store.shares.rows, r.minted = true → r.live s.store.now = true →
      ∃ c ∈ s.store.components.rows, c.shareId = some r.id ∧
        ∃ q ∈ s.store.pages.rows, q.id = c.pageId) ∧
    ∀ org target, (∀ c ∈ s.store.components.rows, ¬(c.orgId = org ∧ c.targetId = target)) →
      ∀ tokenHash r, s.store.resolveActive env tokenHash = some r →
        r.orgId = org → r.targetId = target → r.minted = false := by
  have hinit : Linked s₀ := by
    refine ⟨by simp [hidle], hstart.pages, hstart.shares, ?_⟩
    intro r hr hminted hnone
    exact .inl (hstart.referenced r hr hminted hnone)
  have hlinked : Linked s := hrun.invariant hinit fun _ _ _ h hok heq => h.step hok heq
  have hreferenced : ∀ r ∈ s.store.shares.rows, r.minted = true → r.live s.store.now = true →
      ∃ c ∈ s.store.components.rows, c.shareId = some r.id := by
    intro r hr hminted hlive
    have hnone : r.revokedAt = none :=
      Option.isNone_iff_eq_none.mp (Bool.and_eq_true_iff.mp hlive).1
    rcases hlinked.referenced r hr hminted hnone with hcomponent | ⟨q, hq, hholds⟩
    · exact hcomponent
    · rw [hdone q hq] at hholds
      cases hholds
  constructor
  · intro r hr hminted hlive
    obtain ⟨c, hc, hcs⟩ := hreferenced r hr hminted hlive
    exact ⟨c, hc, hcs, hlinked.pages c hc⟩
  · intro org target hnone tokenHash r hresolved horg htarget
    obtain ⟨hr, hlive⟩ := resolveActive_live hresolved
    rw [Bool.eq_false_iff]
    intro hminted
    obtain ⟨c, hc, hcs⟩ := hreferenced r hr hminted hlive
    obtain ⟨hcorg, hctarget, -⟩ := (hlinked.shares c hc r.id hcs).row hr rfl
    exact hnone c hc ⟨hcorg.symm.trans horg, hctarget.symm.trans htarget⟩

end

/-! ## One page, one monitor -/

namespace One

def env : Env := ⟨fun _ => 0, fun _ => true, fun _ => 10⟩

/-- A page without components. -/
def start : Pooled Store Phase :=
  ⟨⟨0, Rows.empty.insert ⟨7, 1, false⟩, Rows.empty.insert ⟨3, 1⟩, Rows.empty, Rows.empty⟩, []⟩

def published : List (Act Request Choice Nat) :=
  [.begin (.addComponent 1 3 7 true), .go 0 .ok, .go 0 .ok, .go 0 (.mint 9 "t"), .go 0 .ok]

def deleted : List (Act Request Choice Nat) :=
  published ++ ([.begin (.deletePage 1 3), .go 1 .ok] : List (Act Request Choice Nat))

def removed : List (Act Request Choice Nat) :=
  published ++
  ([.begin (.removeComponent 1 3 7), .go 1 .ok, .go 1 .ok, .go 1 .ok, .begin (.deletePage 1 3),
    .go 2 .ok] : List (Act Request Choice Nat))

theorem start_sound : Sound start.store := by
  refine ⟨?_, ?_, ?_⟩
  · exact fun c hc => absurd hc List.not_mem_nil
  · exact fun c hc => absurd hc List.not_mem_nil
  · exact fun r hr => absurd hr List.not_mem_nil

end One

theorem detail_links_die_removed : ∃ s, s.tasks = [.done, .done, .done] ∧
    (s.store.shares.get? 9).map MonitorShare.minted = some true ∧
    Run (program One.env).step (fun s e => tidy s e = true) One.start s ∧
    ∀ r, s.store.resolveActive One.env "t" = some r → r.orgId = 1 → r.targetId = 7 →
      r.minted = false := by
  obtain ⟨s, hrun, hend⟩ := exists_run_of_steps (show
    (steps (guarded (program One.env).step tidy) One.start One.removed).any
      (fun s => s.tasks == [.done, .done, .done] && s.store.components.rows == [] &&
        (s.store.shares.get? 9).map MonitorShare.minted == some true) = true by decide +kernel)
  simp only [Bool.and_eq_true, beq_iff_eq] at hend
  obtain ⟨⟨htasks, hcomponents⟩, hshare⟩ := hend
  have htidy : Run (program One.env).step (fun s e => tidy s e = true) One.start s :=
    hrun.unguard fun _ _ h => h
  have hdie := detail_links_die One.start_sound rfl htidy (by simp [htasks])
  refine ⟨s, htasks, hshare, htidy, hdie.2 1 7 ?_ "t"⟩
  rw [hcomponents]
  exact fun c hc => absurd hc List.not_mem_nil

/-- A deleted page leaves its monitor readable through the link. -/
theorem detail_link_outlives_page : ¬ ∀ (env : Env) (s₀ s : Pooled Store Phase),
    Sound s₀.store → s₀.tasks = [] → Run (program env).step (fun _ _ => True) s₀ s →
    (∀ p ∈ s.tasks, p = .done) →
    (∀ r ∈ s.store.shares.rows, r.minted = true → r.live s.store.now = true →
      ∃ c ∈ s.store.components.rows, c.shareId = some r.id ∧
        ∃ q ∈ s.store.pages.rows, q.id = c.pageId) ∧
    ∀ org target, (∀ c ∈ s.store.components.rows, ¬(c.orgId = org ∧ c.targetId = target)) →
      ∀ tokenHash r, s.store.resolveActive env tokenHash = some r →
        r.orgId = org → r.targetId = target → r.minted = false := by
  intro h
  obtain ⟨s, hrun, hend⟩ := exists_run_of_steps (show
    (steps (program One.env).step One.start One.deleted).any
      (fun s => s.tasks == [.done, .done] && s.store.components.rows == [] &&
        s.store.resolveActive One.env "t" == some (.mint 9 1 7 "t")) = true by decide +kernel)
  simp only [Bool.and_eq_true, beq_iff_eq] at hend
  obtain ⟨⟨htasks, hcomponents⟩, hresolved⟩ := hend
  have hdie := (h One.env One.start s One.start_sound rfl hrun (by simp [htasks])).2 1 7 ?_
    "t" _ hresolved rfl rfl
  · cases hdie
  · rw [hcomponents]
    exact fun c hc => absurd hc List.not_mem_nil

end Uptimepage.StatusPages
