import Uptimepage.Orgs.Create
import Uptimepage.Orgs.Deletes
import Uptimepage.Orgs.Restore

/-!
# A tombstone's slug

Creates, renames, deletes and restores of organisations at READ COMMITTED.  The unique index is
over live organisations, so a tombstone keeps its slug by the probes of the two writers alone.
-/

namespace Uptimepage.Orgs.Slugs

open Async Sql

inductive Request
  | create (r : CreateOrg)
  | update (r : UpdateOrg)
  | delete (r : DeleteOrg)
  | restore (r : RestoreOrg)
deriving DecidableEq

inductive Phase
  | create (p : CreateOrg.Phase)
  | update (p : UpdateOrg.Phase)
  | delete (p : DeleteOrg.Phase)
  | restore (p : RestoreOrg.Phase)
  | failed
deriving DecidableEq

def next (env : Env) (db : Db) : Phase → Action Phase
  | .create p => (createOrgWithOwner env db p).map (Move.map .create)
  | .update p => (updateOrgFields db p).map (Move.map .update)
  | .delete p => (softDeleteOrgForUser db p).map (Move.map .delete)
  | .restore p => (restoreOrg env db p).map (Move.map .restore)
  | .failed => none

def first : Request → Phase
  | .create r => .create (.start r)
  | .update r => .update (.start r)
  | .delete r => .delete (.start r)
  | .restore r => .restore (.start r)

def written : Phase → List Write
  | .create p => CreateOrg.written p
  | .update p => UpdateOrg.written p
  | .delete p => DeleteOrg.written p
  | .restore p => RestoreOrg.written p
  | .failed => []

def locks : Phase → List Key
  | .create p => CreateOrg.locks p
  | .update p => UpdateOrg.locks p
  | .delete p => DeleteOrg.locks p
  | .restore p => RestoreOrg.locks p
  | .failed => []

def code (env : Env) : Code Db Key Write Phase Request Nat where
  apply := Db.apply
  next := next env
  first := first
  failed := .failed
  outer db elapsed := { db with now := db.now + elapsed }

theorem annotated (env : Env) : Annotated (code env).next written locks Write.touches where
  follows := by
    intro db p m h
    cases p with
    | create p =>
      exact (createOrgWithOwner_annotated env).follows_map (f := Phase.create) (fun _ => rfl)
        (fun _ => rfl) h
    | update p =>
      exact updateOrgFields_annotated.follows_map (f := Phase.update) (fun _ => rfl)
        (fun _ => rfl) h
    | delete p =>
      exact softDeleteOrgForUser_annotated.follows_map (f := Phase.delete) (fun _ => rfl)
        (fun _ => rfl) h
    | restore p =>
      exact (restoreOrg_annotated env).follows_map (f := Phase.restore) (fun _ => rfl)
        (fun _ => rfl) h
    | failed => cases h
  covered := by
    intro p
    cases p with
    | create p => exact (createOrgWithOwner_annotated env).covered p
    | update p => exact updateOrgFields_annotated.covered p
    | delete p => exact softDeleteOrgForUser_annotated.covered p
    | restore p => exact (restoreOrg_annotated env).covered p
    | failed => exact fun _ hw => absurd hw List.not_mem_nil

theorem starts (env : Env) : (code env).Starts written locks where
  first := by
    intro request
    cases request <;> exact ⟨rfl, rfl⟩
  failed := ⟨rfl, rfl⟩

/-! ## Who is about to take a slug -/

namespace Phase

/-- A slug that the probe found free and that is yet to be written.  The row to be renamed does
not count. -/
def probed : Phase → Option (String × Option OrgId)
  | .create (.reserve t) | .create (.insert t) => some (t.r.slug, none)
  | .update (.lockRow r _) => r.newSlug.map fun slug => (slug, some r.org)
  | .update (.reserve t) | .update (.update t) =>
    t.r.newSlug.map fun slug => (slug, some t.r.org)
  | _ => none

def naming : Phase → Option (String × Option OrgId)
  | .create (.owner t) | .create (.audit t) | .create (.commit t) => some (t.r.slug, none)
  | .update (.audit t) | .update (.commit t) => some (t.slug, some t.r.org)
  | _ => none

def renames : Phase → Option UpdateOrg.Tx
  | .update (.reserve t) | .update (.update t) | .update (.audit t) | .update (.commit t) => some t
  | _ => none

def lifts : Phase → Option (RestoreOrg.Tx × Organization)
  | .restore (.update t prev) => some (t, prev)
  | _ => none

def tombstones : Phase → Option OrgId
  | .delete (.commit r _ _ _) => some r.org
  | _ => none

end Phase

/-- Nobody tombstones an organisation whose slug another call has found free and is yet to
write. -/
def unprobed (s : State Db Key Write Phase) : Event Request Nat → Bool
  | .go i => (s.sessions[i]?.bind fun x => x.phase.tombstones).all fun org =>
    (s.db.org? org).all fun o => s.sessions.all fun y =>
      y.phase.probed.all fun held => !o.hasSlug held.1 || held.2 == some org
  | _ => true

/-- No two organisations have one slug. -/
def Distinct (db : Db) : Prop :=
  ∀ o ∈ db.orgs.rows, ∀ o' ∈ db.orgs.rows, o.hasSlug o'.slug = true → o.id = o'.id

/-- What a phase takes to be so of the organisations that are committed. -/
structure Fits (db : Db) (p : Phase) : Prop where
  probed : ∀ slug but, p.probed = some (slug, but) → ∀ o ∈ db.orgs.rows,
    o.hasSlug slug = true → some o.id ≠ but → o.live = true
  naming : ∀ slug but, p.naming = some (slug, but) → db.slugHeld slug but = false
  renames : ∀ t, p.renames = some t → db.org? t.r.org = some t.prev ∧ t.prev.live = true
  lifts : ∀ t prev, p.lifts = some (t, prev) → db.org? t.r.org = some prev
  untaken : ∀ r, p ≠ .restore (.returned r .slugTaken)

structure Named (s : State Db Key Write Phase) : Prop where
  traced : Traced written locks s
  distinct : Distinct s.db
  fits : ∀ (i : Nat) (x : Session Key Write Phase), s.sessions[i]? = some x → Fits s.db x.phase

/-! ## Slugs and writes -/

section

variable {db : Db} {slug : String} {but : Option OrgId} {o : Organization} {org : OrgId}

theorem slugHeld_eq_false : db.slugHeld slug but = false ↔
    ∀ o ∈ db.orgs.rows, o.hasSlug slug = true → some o.id = but := by
  unfold Db.slugHeld
  rw [List.any_eq_false]
  refine forall₂_congr fun o _ => ?_
  rw [Bool.and_eq_true, bne_iff_ne, not_and, not_not]

theorem slugLive_eq_false : db.slugLive slug but = false ↔
    ∀ o ∈ db.orgs.rows, o.hasSlug slug = true → o.live = true → some o.id = but := by
  unfold Db.slugLive
  rw [List.any_eq_false]
  refine forall₂_congr fun o _ => ?_
  rw [Bool.and_eq_true, Bool.and_eq_true, bne_iff_ne, not_and, not_not, and_imp]

theorem hasSlug_comm {o o' : Organization} : o.hasSlug o'.slug = o'.hasSlug o.slug := by
  unfold Organization.hasSlug
  exact Bool.beq_comm

theorem slugHeld_apply {w : Write} (h : ¬w.touches (.slugRow (toAsciiLowercase slug)))
    (hdb : db.slugHeld slug but = false) : (db.apply w).slugHeld slug but = false := by
  rw [slugHeld_eq_false] at hdb ⊢
  cases w with
  | insertOrg row =>
    intro o ho hslug
    rcases Rows.mem_insert ho with ho | rfl
    · exact hdb o ho hslug
    · exact absurd (.inr (congrArg Key.slugRow (beq_iff_eq.mp hslug).symm)) h
  | setOrgDeleted org deletedAt updatedAt =>
    intro o ho hslug
    rcases Table.mem_update ho with ho | ⟨o', ho', -, rfl⟩
    · exact hdb o ho hslug
    · exact hdb o' ho' hslug
  | setOrgFields org slug' name updatedAt =>
    intro o ho hslug
    rcases Table.mem_update ho with ho | ⟨o', ho', -, rfl⟩
    · exact hdb o ho hslug
    · exact absurd (.inr (congrArg Key.slugRow (beq_iff_eq.mp hslug).symm)) h
  | deleteOrg org =>
    intro o ho hslug
    exact hdb o (Rows.mem_delete.1 ho).1 hslug
  | _ => exact hdb

theorem Distinct.insertOrg {row : Organization} (h : Distinct db)
    (hrow : db.slugHeld row.slug none = false) : Distinct (db.apply (.insertOrg row)) := by
  rw [slugHeld_eq_false] at hrow
  intro o ho o' ho' hslug
  rcases Rows.mem_insert ho with hold | rfl <;> rcases Rows.mem_insert ho' with hold' | rfl
  · exact h o hold o' hold' hslug
  · exact nomatch hrow o hold hslug
  · rw [hasSlug_comm] at hslug
    exact nomatch hrow o' hold' hslug
  · rfl

theorem Distinct.setOrgFields {name : String} {updatedAt : Time} (h : Distinct db)
    (hfree : db.slugHeld slug (some org) = false) :
    Distinct (db.apply (.setOrgFields org slug name updatedAt)) := by
  rw [slugHeld_eq_false] at hfree
  intro o ho o' ho' hslug
  rcases Table.mem_update ho with ho | ⟨p, hp, hid, rfl⟩ <;>
    rcases Table.mem_update ho' with ho' | ⟨p', hp', hid', rfl⟩
  · exact h o ho o' ho' hslug
  · exact (Option.some.inj (hfree o ho hslug)).trans (beq_iff_eq.mp hid').symm
  · rw [hasSlug_comm] at hslug
    exact (beq_iff_eq.mp hid).trans (Option.some.inj (hfree o' ho' hslug)).symm
  · exact (beq_iff_eq.mp hid).trans (beq_iff_eq.mp hid').symm

theorem Distinct.setOrgDeleted {deletedAt : Option Time} {updatedAt : Time} (h : Distinct db) :
    Distinct (db.apply (.setOrgDeleted org deletedAt updatedAt)) := by
  have hold : ∀ o ∈ (db.apply (.setOrgDeleted org deletedAt updatedAt)).orgs.rows,
      ∃ p ∈ db.orgs.rows, p.slug = o.slug ∧ p.id = o.id := by
    intro o ho
    rcases Table.mem_update ho with ho | ⟨p, hp, -, rfl⟩
    · exact ⟨o, ho, rfl, rfl⟩
    · exact ⟨p, hp, rfl, rfl⟩
  intro o ho o' ho' hslug
  obtain ⟨p, hp, hpslug, hpid⟩ := hold o ho
  obtain ⟨p', hp', hpslug', hpid'⟩ := hold o' ho'
  rw [← hpid, ← hpid']
  refine h p hp p' hp' ?_
  unfold Organization.hasSlug at hslug ⊢
  rw [hpslug, hpslug']
  exact hslug

end

/-! ## What a request does with the phase it is at -/

section

variable {env : Env} {db db' : Db} {p q : Phase}

theorem Fits.same (h : Fits db p) (hprobed : q.probed = p.probed) (hnaming : q.naming = p.naming)
    (hrenames : q.renames = p.renames) (hlifts : q.lifts = p.lifts)
    (huntaken : ∀ r, q ≠ .restore (.returned r .slugTaken)) : Fits db q where
  probed := hprobed ▸ h.probed
  naming := hnaming ▸ h.naming
  renames := hrenames ▸ h.renames
  lifts := hlifts ▸ h.lifts
  untaken := huntaken

theorem Fits.probing (hprobed : ∀ slug but, p.probed = some (slug, but) → ∀ o ∈ db.orgs.rows,
      o.hasSlug slug = true → some o.id ≠ but → o.live = true)
    (hnaming : p.naming = none) (hrenames : p.renames = none) (hlifts : p.lifts = none)
    (huntaken : ∀ r, p ≠ .restore (.returned r .slugTaken)) : Fits db p where
  probed := hprobed
  naming := by simp [hnaming]
  renames := by simp [hrenames]
  lifts := by simp [hlifts]
  untaken := huntaken

theorem Fits.idle (hprobed : p.probed = none) (hnaming : p.naming = none)
    (hrenames : p.renames = none) (hlifts : p.lifts = none)
    (huntaken : ∀ r, p ≠ .restore (.returned r .slugTaken)) : Fits db p :=
  .probing (by simp [hprobed]) hnaming hrenames hlifts huntaken

theorem orgs_opening (t : CreateOrg.Tx) : ((code env).view db t.opening).orgs = db.orgs := by
  unfold CreateOrg.Tx.opening
  split <;> rfl

theorem Fits.create {p : CreateOrg.Phase} {m : Move Key Write CreateOrg.Phase}
    (h : Fits db (.create p))
    (hnext : createOrgWithOwner env ((code env).view db (CreateOrg.written p)) p = some m) :
    Fits db (.create m.dest) := by
  cases p with
  | start r =>
    cases hnext
    exact .idle rfl rfl rfl rfl fun _ => Phase.noConfusion
  | ensureAccount r now =>
    simp only [createOrgWithOwner] at hnext
    split at hnext <;> cases hnext <;> exact .idle rfl rfl rfl rfl fun _ => Phase.noConfusion
  | lockAccount t =>
    cases hnext
    exact .idle rfl rfl rfl rfl fun _ => Phase.noConfusion
  | allowance t =>
    simp only [createOrgWithOwner] at hnext
    split at hnext <;> cases hnext <;> exact .idle rfl rfl rfl rfl fun _ => Phase.noConfusion
  | probe t =>
    simp only [createOrgWithOwner] at hnext
    split at hnext
    · cases hnext
      exact .idle rfl rfl rfl rfl fun _ => Phase.noConfusion
    · next hfree =>
      cases hnext
      rw [Bool.not_eq_true, Db.slugHeld, CreateOrg.written, orgs_opening, ← Db.slugHeld,
        slugHeld_eq_false] at hfree
      refine .probing ?_ rfl rfl rfl fun _ => Phase.noConfusion
      intro slug but hprobed o ho hslug hne
      obtain ⟨rfl, rfl⟩ := Prod.mk.inj (Option.some.inj hprobed)
      cases hfree o ho hslug
  | reserve t =>
    cases hnext
    exact h.same rfl rfl rfl rfl fun _ => Phase.noConfusion
  | insert t =>
    simp only [createOrgWithOwner] at hnext
    split at hnext
    · cases hnext
      exact .idle rfl rfl rfl rfl fun _ => Phase.noConfusion
    next hfree =>
    split at hnext
    · cases hnext
      exact .idle rfl rfl rfl rfl fun _ => Phase.noConfusion
    cases hnext
    rw [Bool.not_eq_true, Db.slugLive, CreateOrg.written, orgs_opening, ← Db.slugLive,
      slugLive_eq_false] at hfree
    refine ⟨by rintro _ _ ⟨⟩, ?_, by rintro _ ⟨⟩, by rintro _ _ ⟨⟩, fun _ => Phase.noConfusion⟩
    intro slug but hnaming
    obtain ⟨rfl, rfl⟩ := Prod.mk.inj (Option.some.inj hnaming)
    rw [slugHeld_eq_false]
    intro o ho hslug
    exact hfree o ho hslug (h.probed _ _ rfl o ho hslug (Option.some_ne_none _))
  | owner t | audit t =>
    cases hnext
    exact h.same rfl rfl rfl rfl fun _ => Phase.noConfusion
  | commit t =>
    cases hnext
    exact .idle rfl rfl rfl rfl fun _ => Phase.noConfusion
  | returned r outcome | failed => cases hnext

theorem Fits.update {p : UpdateOrg.Phase} {m : Move Key Write UpdateOrg.Phase}
    (hdistinct : Distinct db) (h : Fits db (.update p))
    (hnext : updateOrgFields ((code env).view db (UpdateOrg.written p)) p = some m) :
    Fits db (.update m.dest) := by
  cases p with
  | start r =>
    cases hnext
    exact .idle rfl rfl rfl rfl fun _ => Phase.noConfusion
  | probe r now =>
    simp only [updateOrgFields] at hnext
    split at hnext
    · next hslug =>
      cases hnext
      refine .idle ?_ rfl rfl rfl fun _ => Phase.noConfusion
      exact congrArg (Option.map _) hslug
    · next slug hslug =>
      split at hnext
      · cases hnext
        exact .idle rfl rfl rfl rfl fun _ => Phase.noConfusion
      split at hnext
      · cases hnext
        exact .idle rfl rfl rfl rfl fun _ => Phase.noConfusion
      next hfree =>
      cases hnext
      rw [Bool.not_eq_true] at hfree
      have hfree := slugHeld_eq_false.1 hfree
      refine .probing ?_ rfl rfl rfl fun _ => Phase.noConfusion
      intro slug' but hprobed o ho hslug' hne
      obtain ⟨slug₀, hslug₀, heq⟩ := Option.map_eq_some_iff.mp hprobed
      obtain ⟨rfl, rfl⟩ := Prod.mk.inj heq
      obtain rfl := Option.some.inj (hslug.symm.trans hslug₀)
      exact absurd (hfree o ho hslug') hne
  | lockRow r now =>
    simp only [updateOrgFields] at hnext
    split at hnext
    · next prev hprev =>
      cases hnext
      obtain ⟨hprev, hlive⟩ := Option.filter_eq_some_iff.mp hprev
      refine ⟨h.probed, by rintro _ _ ⟨⟩, ?_, by rintro _ _ ⟨⟩, fun _ => Phase.noConfusion⟩
      intro t ht
      obtain rfl := Option.some.inj ht
      exact ⟨hprev, hlive⟩
    · cases hnext
      exact .idle rfl rfl rfl rfl fun _ => Phase.noConfusion
  | reserve t =>
    cases hnext
    exact h.same rfl rfl rfl rfl fun _ => Phase.noConfusion
  | update t =>
    simp only [updateOrgFields] at hnext
    split at hnext
    · cases hnext
      exact .idle rfl rfl rfl rfl fun _ => Phase.noConfusion
    next hfree =>
    cases hnext
    rw [Bool.not_eq_true] at hfree
    have hfree := slugLive_eq_false.1 hfree
    refine ⟨by rintro _ _ ⟨⟩, ?_, h.renames, by rintro _ _ ⟨⟩, fun _ => Phase.noConfusion⟩
    intro slug but hnaming
    obtain ⟨rfl, rfl⟩ := Prod.mk.inj (Option.some.inj hnaming)
    rw [slugHeld_eq_false]
    intro o ho hslug
    by_contra hne
    cases hnew : t.r.newSlug with
    | some slug =>
      have hprobed : Phase.probed (.update (.update t)) = some (slug, some t.r.org) :=
        congrArg (Option.map _) hnew
      have hslug' : o.hasSlug slug = true := by
        rw [UpdateOrg.Tx.slug, hnew] at hslug
        exact hslug
      exact hne (hfree o ho hslug (h.probed _ _ hprobed o ho hslug' hne))
    | none =>
      -- the slug it has
      obtain ⟨hprev, -⟩ := h.renames t rfl
      obtain ⟨hmem, hid⟩ := Rows.get?_eq_some.1 hprev
      have hslug' : o.hasSlug t.prev.slug = true := by
        rw [UpdateOrg.Tx.slug, hnew] at hslug
        exact hslug
      exact hne (congrArg some ((hdistinct o ho t.prev hmem hslug').trans hid))
  | audit t =>
    cases hnext
    exact h.same rfl rfl rfl rfl fun _ => Phase.noConfusion
  | commit t =>
    cases hnext
    exact .idle rfl rfl rfl rfl fun _ => Phase.noConfusion
  | returned r outcome | failed => cases hnext

theorem Fits.restore {p : RestoreOrg.Phase} {m : Move Key Write RestoreOrg.Phase}
    (hdistinct : Distinct db) (h : Fits db (.restore p))
    (hnext : restoreOrg env ((code env).view db (RestoreOrg.written p)) p = some m) :
    Fits db (.restore m.dest) := by
  cases p with
  | start r =>
    simp only [restoreOrg] at hnext
    split at hnext <;> cases hnext <;> exact .idle rfl rfl rfl rfl (by rintro _ ⟨⟩)
  | lockAccount t =>
    cases hnext
    exact .idle rfl rfl rfl rfl (by rintro _ ⟨⟩)
  | allowance t =>
    simp only [restoreOrg] at hnext
    split at hnext <;> cases hnext <;> exact .idle rfl rfl rfl rfl (by rintro _ ⟨⟩)
  | lockRow t =>
    simp only [restoreOrg] at hnext
    split at hnext
    · next prev hprev =>
      cases hnext
      refine ⟨by rintro _ _ ⟨⟩, by rintro _ _ ⟨⟩, by rintro _ ⟨⟩, ?_, by rintro _ ⟨⟩⟩
      intro t' prev' heq
      obtain ⟨rfl, rfl⟩ := Prod.mk.inj (Option.some.inj heq)
      exact (Option.filter_eq_some_iff.mp hprev).1
    · cases hnext
      exact .idle rfl rfl rfl rfl (by rintro _ ⟨⟩)
  | update t prev =>
    simp only [restoreOrg] at hnext
    split at hnext
    · next htaken =>
      -- the row that has the slug is its own
      obtain ⟨hmem, hid⟩ := Rows.get?_eq_some.1 (h.lifts t prev rfl)
      obtain ⟨o, ho, hrow⟩ := List.any_eq_true.mp htaken
      obtain ⟨hrow, hne⟩ := Bool.and_eq_true_iff.mp hrow
      have hsame := hdistinct o ho prev hmem (Bool.and_eq_true_iff.mp hrow).1
      exact absurd (congrArg some (hsame.trans hid)) (bne_iff_ne.mp hne)
    · cases hnext
      exact .idle rfl rfl rfl rfl (by rintro _ ⟨⟩)
  | counts t prev =>
    simp only [restoreOrg] at hnext
    split at hnext <;> cases hnext <;> exact .idle rfl rfl rfl rfl (by rintro _ ⟨⟩)
  | rearm t prev | adopt t prev armed | commit t prev armed adopted =>
    cases hnext
    exact .idle rfl rfl rfl rfl (by rintro _ ⟨⟩)
  | diagnose t =>
    cases hnext
    refine .idle rfl rfl rfl rfl ?_
    intro r heq
    have houtcome := (RestoreOrg.Phase.returned.inj (Phase.restore.inj heq)).2
    unfold Db.diagnose at houtcome
    split at houtcome
    · cases houtcome
    · split at houtcome
      · cases houtcome
      · split at houtcome <;> cases houtcome
  | returned r outcome | failed => cases hnext

theorem Fits.next (hdistinct : Distinct db) (h : Fits db p) {m : Move Key Write Phase}
    (hnext : Slugs.next env ((code env).view db (written p)) p = some m) : Fits db m.dest := by
  cases p with
  | create p =>
    obtain ⟨m₀, hmove, rfl⟩ := Option.map_eq_some_iff.mp hnext
    cases m₀ <;> exact h.create hmove
  | update p =>
    obtain ⟨m₀, hmove, rfl⟩ := Option.map_eq_some_iff.mp hnext
    cases m₀ <;> exact h.update hdistinct hmove
  | delete p =>
    obtain ⟨m₀, -, rfl⟩ := Option.map_eq_some_iff.mp hnext
    cases m₀ <;> exact .idle rfl rfl rfl rfl (by rintro _ ⟨⟩)
  | restore p =>
    obtain ⟨m₀, hmove, rfl⟩ := Option.map_eq_some_iff.mp hnext
    cases m₀ <;> exact h.restore hdistinct hmove
  | failed => cases hnext

/-! ## Commits -/

/-- What each kind of commit does to the organisations. -/
inductive Commits : Phase → Write → Prop
  | create (t : CreateOrg.Tx) : Commits (.create (.commit t)) (.insertOrg t.row)
  | update (t : UpdateOrg.Tx) : Commits (.update (.commit t)) t.fields
  | delete (r : DeleteOrg) (now : Time) (siblings : List OrgId)
      (repointed : List (String × Option OrgId)) :
    Commits (.delete (.commit r now siblings repointed)) (r.tombstone now)
  | restore (t : RestoreOrg.Tx) (prev : Organization) (armed : List Uuid)
      (adopted : List String) : Commits (.restore (.commit t prev armed adopted)) t.lift

theorem commits_of_next (hnext : Slugs.next env db p = some (.commit q)) :
    (∃ w, Commits p w) ∧ ∀ db', Fits db' q := by
  cases p with
  | create p =>
    obtain ⟨m₀, hmove, hm⟩ := Option.map_eq_some_iff.mp hnext
    cases p with
    | commit t =>
      cases hmove
      cases hm
      exact ⟨⟨_, .create t⟩, fun _ => .idle rfl rfl rfl rfl (by rintro _ ⟨⟩)⟩
    | start | lockAccount | reserve | owner | audit =>
      cases hmove
      cases hm
    | ensureAccount | allowance | probe =>
      simp only [createOrgWithOwner] at hmove
      split at hmove <;> cases hmove <;> cases hm
    | insert t =>
      simp only [createOrgWithOwner] at hmove
      split at hmove
      · cases hmove
        cases hm
      · split at hmove <;> cases hmove <;> cases hm
    | returned | failed => cases hmove
  | update p =>
    obtain ⟨m₀, hmove, hm⟩ := Option.map_eq_some_iff.mp hnext
    cases p with
    | commit t =>
      cases hmove
      cases hm
      exact ⟨⟨_, .update t⟩, fun _ => .idle rfl rfl rfl rfl (by rintro _ ⟨⟩)⟩
    | start | reserve | audit =>
      cases hmove
      cases hm
    | lockRow | update =>
      simp only [updateOrgFields] at hmove
      split at hmove <;> cases hmove <;> cases hm
    | probe r now =>
      simp only [updateOrgFields] at hmove
      split at hmove
      · cases hmove
        cases hm
      · split at hmove
        · cases hmove
          cases hm
        · split at hmove <;> cases hmove <;> cases hm
    | returned | failed => cases hmove
  | delete p =>
    obtain ⟨m₀, hmove, hm⟩ := Option.map_eq_some_iff.mp hnext
    cases m₀ with
    | commit q' =>
      cases hm
      obtain ⟨r, now, siblings, repointed, rfl, rfl⟩ := DeleteOrg.next_commit hmove
      exact ⟨⟨_, .delete r now siblings repointed⟩, fun _ => .idle rfl rfl rfl rfl (by rintro _ ⟨⟩)⟩
    | run | rollback => cases hm
  | restore p =>
    obtain ⟨m₀, hmove, hm⟩ := Option.map_eq_some_iff.mp hnext
    cases p with
    | commit t prev armed adopted =>
      cases hmove
      cases hm
      exact ⟨⟨_, .restore t prev armed adopted⟩,
        fun _ => .idle rfl rfl rfl rfl (by rintro _ ⟨⟩)⟩
    | lockAccount | rearm | adopt | diagnose =>
      cases hmove
      cases hm
    | start | allowance | lockRow | update | counts =>
      simp only [restoreOrg] at hmove
      split at hmove <;> cases hmove <;> cases hm
    | returned | failed => cases hmove
  | failed => cases hnext

theorem orgs_view_of {ws : List Write} (h : ∀ w ∈ ws, w.onOrgs = false) :
    ((code env).view db ws).orgs = db.orgs := by
  refine (code env).view_kept (P := fun db' => db'.orgs = db.orgs) ?_ rfl
  intro db' w hw hdb
  exact (Db.orgs_apply (h w hw)).trans hdb

theorem Commits.orgs {w : Write} (h : Commits p w) :
    ((code env).view db (written p)).orgs = (db.apply w).orgs := by
  cases h with
  | create t =>
    have hrest : ∀ w ∈ [.insertMembership t.membership, t.entry], w.onOrgs = false := by
      intro w hw
      rcases List.mem_cons.mp hw with rfl | hw
      · rfl
      · rw [List.mem_singleton.mp hw]
        rfl
    have hwritten : written (.create (.commit t)) =
        t.opening ++ .insertOrg t.row :: [.insertMembership t.membership, t.entry] := by
      simp [written, CreateOrg.written]
    rw [hwritten, Code.view_append, Code.view_cons, orgs_view_of hrest]
    show ((code env).view db t.opening).orgs.insert t.row = db.orgs.insert t.row
    rw [orgs_opening]
  | update t =>
    have hrest : ∀ w ∈ t.entries, w.onOrgs = false := by
      intro w hw
      rcases List.mem_append.mp hw with hw | hw <;> split at hw
      · rw [List.mem_singleton.mp hw]
        rfl
      · cases hw
      · rw [List.mem_singleton.mp hw]
        rfl
      · cases hw
    exact orgs_view_of hrest
  | delete r now siblings repointed =>
    have hrest : ∀ w ∈ DeleteOrg.repoints repointed ++ [r.entry now], w.onOrgs = false := by
      intro w hw
      rcases List.mem_append.mp hw with hw | hw
      · obtain ⟨v, -, rfl⟩ := List.mem_map.mp hw
        rfl
      · rw [List.mem_singleton.mp hw]
        rfl
    exact orgs_view_of hrest
  | restore t prev armed adopted =>
    have hrest : ∀ w ∈ t.entry :: t.rearms armed ++ t.adopts adopted, w.onOrgs = false := by
      intro w hw
      rcases List.mem_append.mp hw with hw | hw
      · rcases List.mem_cons.mp hw with rfl | hw
        · rfl
        · obtain ⟨v, -, rfl⟩ := List.mem_map.mp hw
          rfl
      · obtain ⟨v, -, rfl⟩ := List.mem_map.mp hw
        rfl
    exact orgs_view_of hrest

theorem Distinct.congr (h : Distinct db) (heq : db'.orgs = db.orgs) : Distinct db' := by
  unfold Distinct
  rw [heq]
  exact h

theorem Distinct.commit {w : Write} (h : Distinct db) (hfits : Fits db p) (hp : Commits p w) :
    Distinct ((code env).view db (written p)) := by
  refine Distinct.congr ?_ hp.orgs
  cases hp with
  | create t => exact h.insertOrg (hfits.naming _ _ rfl)
  | update t => exact h.setOrgFields (hfits.naming _ _ rfl)
  | delete r now siblings repointed => exact h.setOrgDeleted
  | restore t prev armed adopted => exact h.setOrgDeleted

/-! ## Locks -/

theorem naming_mem_locks {slug : String} {but : Option OrgId} (h : p.naming = some (slug, but)) :
    Key.slugRow (toAsciiLowercase slug) ∈ locks p := by
  cases p with
  | create p =>
    cases p with
    | owner t | audit t | commit t =>
      obtain ⟨rfl, -⟩ := Prod.mk.inj (Option.some.inj h)
      simp [locks, CreateOrg.locks, CreateOrg.Tx.rowKeys]
    | _ => cases h
  | update p =>
    cases p with
    | audit t | commit t =>
      obtain ⟨rfl, -⟩ := Prod.mk.inj (Option.some.inj h)
      exact List.mem_cons_self
    | _ => cases h
  | delete | restore | failed => cases h

theorem renames_mem_locks {t : UpdateOrg.Tx} (h : p.renames = some t) :
    Key.orgRow t.r.org ∈ locks p := by
  cases p with
  | update p =>
    cases p with
    | reserve t | update t | audit t | commit t =>
      cases h
      simp [locks, UpdateOrg.locks, UpdateOrg.Tx.keys]
    | _ => cases h
  | create | delete | restore | failed => cases h

theorem lifts_mem_locks {t : RestoreOrg.Tx} {prev : Organization}
    (h : p.lifts = some (t, prev)) : Key.orgRow t.r.org ∈ locks p := by
  cases p with
  | restore p =>
    cases p with
    | update t prev =>
      cases h
      exact List.mem_cons_self
    | _ => cases h
  | create | update | delete | failed => cases h

variable {s s' : State Db Key Write Phase} {i j : Nat} {x y : Session Key Write Phase}

theorem Named.others (h : Named s) (hx : s.sessions[i]? = some x) (hy : s.sessions[j]? = some y)
    (hne : i ≠ j) {w : Write} (hp : Commits x.phase w)
    (hunprobed : unprobed s (.go i) = true) :
    Fits ((code env).view s.db x.pending) y.phase := by
  have hfits := h.fits j y hy
  have hlocked : ∀ {org : OrgId} {prev : Organization}, Key.orgRow org ∈ locks y.phase →
      s.db.org? org = some prev → ((code env).view s.db x.pending).org? org = some prev := by
    intro org prev hmem hprev
    refine (annotated env).stays (P := fun db => db.org? org = some prev) h.traced ?_ hx hy hne hmem
      hprev
    intro db w htouches hdb
    exact (Db.org?_apply htouches).trans hdb
  refine ⟨?_, ?_, ?_, ?_, hfits.untaken⟩
  · intro slug but hprobed o ho hslug hbut
    rw [h.traced.pending i x hx, hp.orgs] at ho
    have hxfits := h.fits i x hx
    generalize hphase : x.phase = p at hp hxfits
    cases hp with
    | create t =>
      rcases Rows.mem_insert ho with hold | rfl
      · exact hfits.probed slug but hprobed o hold hslug hbut
      · rfl
    | update t =>
      rcases Table.mem_update ho with hold | ⟨o', ho', hid, rfl⟩
      · exact hfits.probed slug but hprobed o hold hslug hbut
      · obtain ⟨hprev, hlive⟩ := hxfits.renames t rfl
        obtain ⟨hmem, hkey⟩ := Rows.get?_eq_some.1 hprev
        obtain rfl := Rows.eq_of_key ho' hmem ((beq_iff_eq.mp hid).trans hkey.symm)
        exact hlive
    | delete r now siblings repointed =>
      rcases Table.mem_update ho with hold | ⟨o', ho', hid, rfl⟩
      · exact hfits.probed slug but hprobed o hold hslug hbut
      · have hget : s.db.org? r.org = some o' := Rows.get?_eq_some.2 ⟨ho', beq_iff_eq.mp hid⟩
        have hall : (s.sessions.all fun y => y.phase.probed.all fun held =>
            !o'.hasSlug held.1 || held.2 == some r.org) = true := by
          unfold unprobed at hunprobed
          simpa [hx, hphase, Phase.tombstones, hget] using hunprobed
        have hone := List.all_eq_true.mp hall y (List.mem_iff_getElem?.mpr ⟨j, hy⟩)
        have hslug' : o'.hasSlug slug = true := hslug
        rw [hprobed, Option.all_some, hslug', Bool.not_true, Bool.false_or, beq_iff_eq] at hone
        exact absurd ((congrArg some (beq_iff_eq.mp hid)).trans hone.symm) hbut
    | restore t prev armed adopted =>
      rcases Table.mem_update ho with hold | ⟨o', ho', hid, rfl⟩
      · exact hfits.probed slug but hprobed o hold hslug hbut
      · rfl
  · intro slug but hnaming
    exact (annotated env).stays (P := fun db => db.slugHeld slug but = false) h.traced
      (fun _ _ htouches hdb => slugHeld_apply htouches hdb) hx hy hne (naming_mem_locks hnaming)
      (hfits.naming slug but hnaming)
  · intro t ht
    obtain ⟨hprev, hlive⟩ := hfits.renames t ht
    exact ⟨hlocked (renames_mem_locks ht) hprev, hlive⟩
  · intro t prev ht
    exact hlocked (lifts_mem_locks ht) (hfits.lifts t prev ht)

theorem Named.put (h : Named s) (htraced : Traced written locks (s.put i y))
    (hy : Fits s.db y.phase) : Named (s.put i y) :=
  ⟨htraced, h.distinct, forall_put hy h.fits⟩

theorem Named.step (h : Named s) {e : Event Request Nat} (hunprobed : unprobed s e = true)
    (heq : (code env).step s e = some s') : Named s' := by
  have htraced := (annotated env).traced (starts env) h.traced heq
  have hmoved : ∀ {i : Nat} {x : Session Key Write Phase} {m : Move Key Write Phase},
      s.sessions[i]? = some x → (code env).nextOf s x = some m → Fits s.db m.dest := by
    intro i x m hx hnext
    unfold Code.nextOf at hnext
    rw [h.traced.pending i x hx] at hnext
    exact (h.fits i x hx).next h.distinct hnext
  cases Code.stepped heq with
  | begin request =>
    refine ⟨htraced, h.distinct, ?_⟩
    intro j z hj
    rcases getElem?_snoc_cases hj with hj | ⟨-, rfl⟩
    · exact h.fits j z hj
    · cases request <;> exact .idle rfl rfl rfl rfl (by rintro _ ⟨⟩)
  | run hx hnext hfree => exact h.put htraced (hmoved hx hnext)
  | @commit i x q hx hnext =>
    obtain ⟨⟨w, hp⟩, hq⟩ := commits_of_next hnext
    refine ⟨htraced, ?_, ?_⟩
    · show Distinct ((code env).view s.db x.pending)
      rw [h.traced.pending i x hx]
      exact h.distinct.commit (h.fits i x hx) hp
    · intro j z hj
      rcases getElem?_set_cases hj with ⟨-, rfl⟩ | ⟨hji, hj⟩
      · exact hq _
      · exact h.others hx hj hji.symm hp hunprobed
  | rollback hx hnext => exact h.put htraced (hmoved hx hnext)
  | abort hx hnext => exact h.put htraced (.idle rfl rfl rfl rfl (by rintro _ ⟨⟩))
  | outer elapsed =>
    refine ⟨htraced, h.distinct, ?_⟩
    intro j z hj
    have hfits := h.fits j z hj
    exact ⟨hfits.probed, hfits.naming, hfits.renames, hfits.lifts, hfits.untaken⟩

end

/-- **A tombstone keeps its slug**, and its restore never finds it taken, where no organisation is
tombstoned while another call is between the probe and the write of its slug. -/
theorem slugs_stay_distinct {env : Env} {s₀ s : State Db Key Write Phase}
    (hidle : s₀.sessions = []) (hdistinct : Distinct s₀.db)
    (hrun : Run (code env).step (fun s e => unprobed s e = true) s₀ s) :
    Distinct s.db ∧ ∀ x ∈ s.sessions, ∀ r, x.phase ≠ .restore (.returned r .slugTaken) := by
  have hstart : Named s₀ := by
    refine ⟨⟨?_, ?_, ?_⟩, hdistinct, ?_⟩
    · intro i j x y k hx
      simp [hidle] at hx
    · intro i x hx
      simp [hidle] at hx
    · intro i x hx
      simp [hidle] at hx
    · intro i x hx
      simp [hidle] at hx
  have hnamed : Named s := hrun.invariant hstart fun _ _ _ h hok heq => h.step hok heq
  refine ⟨hnamed.distinct, ?_⟩
  intro x hx
  obtain ⟨i, hi⟩ := List.mem_iff_getElem?.mp hx
  exact (hnamed.fits i x hi).untaken

namespace One

def env : Env where
  plan _ := ⟨3, 3, 3, 3, 3, 3, 3, 3, 3, 3⟩
  graceDays := 1

def db : Db where
  now := 0
  users := DeleteOrg.Two.db.users
  accounts := ⟨[⟨1, some 1⟩, ⟨2, some 2⟩], by decide⟩
  orgs := .single ⟨10, "ten", "Ten", 1, none, 0⟩
  memberships := .single ⟨1, 10, .owner, 0⟩
  sessions := .empty
  targets := .empty
  heartbeats := .empty
  resources := []
  audit := []
  purgeQueue := .empty
  measurements := []

def acme (id : OrgId) (user : UserId) : CreateOrg := ⟨id, 0, user, "acme", "Acme"⟩

def go (i n : Nat) : List (Event Request Nat) := List.replicate n (.go i)

theorem distinct : Distinct db := by
  intro o ho o' ho' _
  rw [List.mem_singleton.mp ho, List.mem_singleton.mp ho']

/-- The slug is created, tombstoned, asked for again and restored. -/
def inTurn : List (Event Request Nat) :=
  .begin (.create (acme 30 1)) :: go 0 10 ++ .begin (.delete ⟨30, 1⟩) :: go 1 7 ++
    .begin (.create (acme 31 2)) :: go 2 5 ++ .begin (.restore ⟨30, 1⟩) :: go 3 9

/-- It is asked for before all that, and written in between. -/
def overlapping : List (Event Request Nat) :=
  .begin (.create (acme 31 2)) :: go 0 5 ++ .begin (.create (acme 30 1)) :: go 1 10 ++
    .begin (.delete ⟨30, 1⟩) :: go 2 7 ++ go 0 5 ++ .begin (.restore ⟨30, 1⟩) :: go 3 5

end One

theorem slugs_stay_distinct_restored : ∃ s : State Db Key Write Phase,
    s.sessions.map Session.phase =
      [.create (.returned (One.acme 30 1) .created), .delete (.returned ⟨30, 1⟩ .deleted),
        .create (.returned (One.acme 31 2) .slugTaken), .restore (.returned ⟨30, 1⟩ .restored)] ∧
      Distinct s.db ∧ ∀ x ∈ s.sessions, ∀ r, x.phase ≠ .restore (.returned r .slugTaken) := by
  obtain ⟨s, hrun, hend⟩ := exists_run_of_steps (show
    (steps (guarded (code One.env).step unprobed) ⟨One.db, []⟩ One.inTurn).any (fun s =>
      decide (s.sessions.map Session.phase =
        [.create (.returned (One.acme 30 1) .created), .delete (.returned ⟨30, 1⟩ .deleted),
          .create (.returned (One.acme 31 2) .slugTaken),
          .restore (.returned ⟨30, 1⟩ .restored)])) = true by decide +kernel)
  exact ⟨s, of_decide_eq_true hend,
    slugs_stay_distinct rfl One.distinct (hrun.unguard fun _ _ h => h)⟩

/-- The tombstone's slug is created again, and the restore finds it taken. -/
theorem tombstone_loses_slug : ¬ ∀ (env : Env) (s₀ s : State Db Key Write Phase),
    s₀.sessions = [] → Distinct s₀.db → Run (code env).step (fun _ _ => True) s₀ s →
    Distinct s.db ∧ ∀ x ∈ s.sessions, ∀ r, x.phase ≠ .restore (.returned r .slugTaken) := by
  intro h
  obtain ⟨s, hrun, hend⟩ := exists_run_of_steps (show
    (steps (code One.env).step ⟨One.db, []⟩ One.overlapping).any (fun s =>
      s.sessions.any fun x => decide (x.phase = .restore (.returned ⟨30, 1⟩ .slugTaken))) = true by
    decide +kernel)
  obtain ⟨x, hx, htaken⟩ := List.any_eq_true.mp hend
  exact (h One.env _ s rfl One.distinct hrun).2 x hx _ (of_decide_eq_true htaken)

end Uptimepage.Orgs.Slugs
