import Uptimepage.Sql.ReadCommitted
import Uptimepage.Sql.Rows
import Uptimepage.Variables.Usage

/-!
# A referenced variable is not deleted

The handlers that save a monitor and the one that deletes a variable, statement by statement.
A save resolves its check against the organisation's variables, and writes it in a later
statement; a delete reads the variable, counts the checks that reference it, and deletes it if
there are none, each by itself.  No statement takes a lock that another waits for.
-/

namespace Uptimepage.Variables

open Async Sql

/-- A row of `org_variables`, with its `CHECK`. -/
structure Variable where
  id : Uuid
  orgId : OrgId
  key : String
  isSecret : Bool
  value : String
  checked : validKey key = true
deriving DecidableEq

structure StoredTarget where
  id : Uuid
  orgId : OrgId
  check : CheckSpec
deriving DecidableEq

/-- `gone`, not in the source, are the variables that have been deleted. -/
structure Db where
  orgVariables : Rows Variable.id
  targets : Rows StoredTarget.id
  gone : List Variable

namespace Db

def has (db : Db) (org : OrgId) (key : String) : Bool :=
  db.orgVariables.rows.any fun v => v.orgId == org && v.key == key

def lost (db : Db) (org : OrgId) (key : String) : Bool :=
  db.gone.any fun v => v.orgId == org && v.key == key

/-- A secret that cannot be opened is left out. -/
def resolveMap (env : Env) (db : Db) (org : OrgId) : VarMap := fun key =>
  (db.orgVariables.rows.find? fun v => v.orgId == org && v.key == key).bind fun v =>
    if v.isSecret then (env.openStr v.value).map fun value => ⟨value, true⟩
    else some ⟨v.value, false⟩

def usageCount (env : Env) (db : Db) (org : OrgId) (key : String) : Nat :=
  db.targets.rows.countP fun t => t.orgId == org && referenced env key (t.check.text env)

end Db

/-! ## Statements -/

inductive Write
  | insertTarget (t : StoredTarget)
  | setCheck (id : Uuid) (check : CheckSpec)
  | deleteVariable (id : Uuid)

def Db.apply (db : Db) : Write → Db
  | .insertTarget t => { db with targets := db.targets.insert t }
  | .setCheck id check => { db with
      targets := db.targets.update (fun t => t.id == id) (fun t => { t with check := check })
        fun _ => rfl }
  | .deleteVariable id => { db with
      orgVariables := db.orgVariables.delete fun v => v.id == id
      gone := db.gone ++ db.orgVariables.rows.filter fun v => v.id == id }

inductive Key
  | targetRow (id : Uuid)
  | variableRow (id : Uuid)
deriving DecidableEq

/-- `id` is the one that is drawn for a new target.  The check is what is saved, the stored
credentials carried over. -/
structure Save where
  org : OrgId
  id : Uuid
  check : CheckSpec

inductive Request
  | create (n : Save)
  | update (n : Save)
  | delete (org : OrgId) (id : Uuid)

inductive Outcome
  | saved
  | unresolved (e : ResolveError)
  | notFound
  | inUse (usedBy : Nat)
  | deleted
deriving DecidableEq

inductive Phase
  | create (n : Save)
  | insert (n : Save)
  | insertCommit (n : Save)
  | update (n : Save)
  | rewrite (n : Save)
  | rewriteCommit (n : Save)
  | delete (org : OrgId) (id : Uuid)
  | count (v : Variable)
  | remove (v : Variable)
  | deleteCommit (v : Variable) (gone : Bool)
  | returned (outcome : Outcome)
  | failed

def Request.first : Request → Phase
  | .create n => .create n
  | .update n => .update n
  | .delete org id => .delete org id

abbrev Action := Option (Move Key Write Phase)

/-- `validate_variable_refs`, and where it leads. -/
def validate (env : Env) (db : Db) (n : Save) (then_ : Phase) : Action :=
  match validateVariableRefs env (db.resolveMap env n.org) n.check with
  | .ok _ => some (.run [] [] then_)
  | .error e => some (.rollback (.returned (.unresolved e)))

def next (env : Env) (db : Db) : Phase → Action
  | .create n => validate env db n (.insert n)
  | .insert n =>
    if (db.targets.get? n.id).isSome then some (.rollback .failed)
    else some (.run [.targetRow n.id] [.insertTarget ⟨n.id, n.org, n.check⟩] (.insertCommit n))
  | .insertCommit _ => some (.commit (.returned .saved))
  | .update n => validate env db n (.rewrite n)
  | .rewrite n =>
    if (db.targets.get? n.id).any fun t => t.orgId == n.org then
      some (.run [.targetRow n.id] [.setCheck n.id n.check] (.rewriteCommit n))
    else some (.rollback (.returned .notFound))
  | .rewriteCommit _ => some (.commit (.returned .saved))
  | .delete org id =>
    match (db.orgVariables.get? id).filter fun v => v.orgId == org with
    | some v => some (.run [] [] (.count v))
    | none => some (.rollback (.returned .notFound))
  | .count v =>
    let usedBy := db.usageCount env v.orgId v.key
    if 0 < usedBy then some (.rollback (.returned (.inUse usedBy)))
    else some (.run [] [] (.remove v))
  | .remove v =>
    if (db.orgVariables.get? v.id).any fun r => r.orgId == v.orgId then
      some (.run [.variableRow v.id] [.deleteVariable v.id] (.deleteCommit v true))
    else some (.run [] [] (.deleteCommit v false))
  -- Also when somebody else has deleted it.
  | .deleteCommit _ _ => some (.commit (.returned .deleted))
  | .returned _ | .failed => none

def code (env : Env) : Code Db Key Write Phase Request Empty where
  apply := Db.apply
  next := next env
  first := Request.first
  failed := .failed
  outer := fun db _ => db

abbrev State := Sql.State Db Key Write Phase

abbrev Event := Sql.Event Request Empty

def written : Phase → List Write
  | .insertCommit n => [.insertTarget ⟨n.id, n.org, n.check⟩]
  | .rewriteCommit n => [.setCheck n.id n.check]
  | .deleteCommit v true => [.deleteVariable v.id]
  | _ => []

theorem annotated (env : Env) :
    Annotated (next env) written (fun _ => []) fun (_ : Write) (_ : Key) => False where
  follows := by
    intro db p m hm
    cases p with
    | create n | update n =>
      simp only [next, validate] at hm
      split at hm <;> cases hm <;> simp [Move.Follows, written]
    | delete org id =>
      simp only [next] at hm
      split at hm <;> cases hm <;> simp [Move.Follows, written]
    | insert n | rewrite n | count v | remove v =>
      simp only [next] at hm
      split at hm <;> cases hm <;> simp [Move.Follows, written]
    | insertCommit | rewriteCommit | deleteCommit =>
      cases hm
      simp [Move.Follows, written]
    | returned | failed => cases hm
  covered := fun _ _ _ _ h => h.elim

theorem starts (env : Env) : (code env).Starts written fun _ => ([] : List Key) where
  first := fun request => by cases request <;> exact ⟨rfl, rfl⟩
  failed := ⟨rfl, rfl⟩

/-! ## The invariant -/

/-- Every stored check is plainly spelled, and each variable it asks for is there. -/
def Stored (env : Env) (db : Db) : Prop :=
  ∀ t ∈ db.targets.rows, PlainlySpelled env t.check ∧
    ∀ k ∈ t.check.keys, db.has t.orgId k = true

def Phase.saving : Phase → Option Save
  | .insertCommit n | .rewriteCommit n => some n
  | _ => none

/-- A save whose check has resolved. -/
def Phase.checked : Phase → Option Save
  | .insert n | .insertCommit n | .rewrite n | .rewriteCommit n => some n
  | _ => none

/-- The row that a save rewrites. -/
def Phase.rewriting : Phase → Option Save
  | .rewriteCommit n => some n
  | _ => none

def Phase.found : Phase → Option Variable
  | .count v | .remove v | .deleteCommit v _ => some v
  | _ => none

def Phase.counted : Phase → Option Variable
  | .remove v | .deleteCommit v _ => some v
  | _ => none

/-- Every variable the check asks for is there, or was. -/
def Save.Checked (db : Db) (n : Save) : Prop :=
  ∀ k ∈ n.check.keys, db.has n.org k = true ∨ db.lost n.org k = true

structure Sound (db : Db) (p : Phase) : Prop where
  checked : ∀ n ∈ p.checked, n.Checked db
  rewriting : ∀ n ∈ p.rewriting, (db.targets.get? n.id).any (fun t => t.orgId == n.org) = true
  same : ∀ v ∈ p.found, ∀ r ∈ db.orgVariables.rows, r.id = v.id → r = v
  counted : ∀ v ∈ p.counted, ∀ t ∈ db.targets.rows, t.orgId = v.orgId → v.key ∉ t.check.keys

/-- A save commits no reference that is not counted as one, and none to a variable whose delete has
committed since the save resolved it, or that an open delete has counted before. -/
def Unraced (env : Env) (s : State) : Event → Prop
  | .go i => ∀ x n, s.sessions[i]? = some x → n ∈ x.phase.saving →
    PlainlySpelled env n.check ∧ ∀ k ∈ n.check.keys, s.db.lost n.org k = false ∧
      ∀ (j : Nat) (y : Session Key Write Phase), s.sessions[j]? = some y →
        ∀ v ∈ y.phase.counted, v.orgId = n.org → v.key ≠ k
  | _ => True

/-- Neither reads nor writes are under way. -/
def Phase.Quiet (p : Phase) : Prop :=
  p.checked = none ∧ p.rewriting = none ∧ p.found = none ∧ p.counted = none

variable {p q : Phase} {t : StoredTarget}

theorem Sound.of_checked {db : Db} (hrewriting : ∀ n ∈ p.rewriting,
      (db.targets.get? n.id).any (fun t => t.orgId == n.org) = true) (hfound : p.found = none)
    (hcounted : p.counted = none) (hchecked : ∀ n ∈ p.checked, n.Checked db) : Sound db p := by
  refine ⟨hchecked, hrewriting, fun v hv => ?_, fun v hv => ?_⟩
  · rw [hfound] at hv
    cases hv
  · rw [hcounted] at hv
    cases hv

theorem Sound.of_found {db : Db} (hchecked : p.checked = none) (hrewriting : p.rewriting = none)
    (hsame : ∀ v ∈ p.found, ∀ r ∈ db.orgVariables.rows, r.id = v.id → r = v)
    (hcounted : ∀ v ∈ p.counted, ∀ t ∈ db.targets.rows, t.orgId = v.orgId →
      v.key ∉ t.check.keys) : Sound db p := by
  refine ⟨fun n hn => ?_, fun n hn => ?_, hsame, hcounted⟩
  · rw [hchecked] at hn
    cases hn
  · rw [hrewriting] at hn
    cases hn

theorem Phase.Quiet.sound (h : p.Quiet) (db : Db) : Sound db p := by
  refine .of_found h.1 h.2.1 (fun v hv => ?_) fun v hv => ?_
  · rw [h.2.2.1] at hv
    cases hv
  · rw [h.2.2.2] at hv
    cases hv

theorem has_of_resolveMap {env : Env} {db : Db} {org : OrgId} {k : String}
    (h : db.resolveMap env org k ≠ none) : db.has org k = true := by
  obtain ⟨v, hv⟩ := Option.ne_none_iff_exists'.mp h
  obtain ⟨r, hr, -⟩ := Option.bind_eq_some_iff.mp hv
  have hkey := List.find?_some hr
  exact List.any_eq_true.mpr ⟨r, List.mem_of_find?_eq_some hr, hkey⟩

theorem Sound.validate {env : Env} {db : Db} {n : Save} {keys : List Key} {writes : List Write}
    (h : validate env db n p = some (.run keys writes q)) :
    q = p ∧ n.Checked db := by
  unfold Variables.validate at h
  split at h <;> cases h
  next hok => exact ⟨rfl, fun k hk => .inl (has_of_resolveMap (found_of_validated hok k hk))⟩

theorem usageCount_pos {env : Env} {db : Db} (h : Stored env db) (ht : t ∈ db.targets.rows)
    {key : String} (hkey : key ∈ t.check.keys) : 0 < db.usageCount env t.orgId key := by
  unfold Db.usageCount
  rw [List.countP_pos_iff]
  refine ⟨t, ht, ?_⟩
  rw [Bool.and_eq_true]
  exact ⟨beq_self_eq_true t.orgId, referenced_of_mem (h t ht).1 hkey⟩

theorem Sound.run {env : Env} {db : Db} {keys : List Key} {writes : List Write}
    (hstored : Stored env db) (h : Sound db p)
    (hnext : next env ((code env).view db (written p)) p = some (.run keys writes q)) :
    Sound db q := by
  cases p with
  | create n | update n =>
    rw [show written _ = [] from rfl, Code.view_nil] at hnext
    obtain ⟨rfl, hchecked⟩ := Sound.validate hnext
    refine .of_checked (fun _ hn => by cases hn) rfl rfl fun n' hn => ?_
    cases hn
    exact hchecked
  | insert n =>
    simp only [next] at hnext
    split at hnext <;> cases hnext
    exact .of_checked (fun _ hn => by cases hn) rfl rfl h.checked
  | rewrite n =>
    simp only [next] at hnext
    split at hnext <;> cases hnext
    next howned =>
    refine .of_checked (fun n' hn => ?_) rfl rfl h.checked
    cases hn
    exact howned
  | delete org id =>
    simp only [next] at hnext
    split at hnext <;> cases hnext
    next v hv =>
    obtain ⟨hv, -⟩ := Option.filter_eq_some_iff.mp hv
    refine .of_found rfl rfl (fun v' hv' r hr hid => ?_) fun v' hv' => by cases hv'
    cases hv'
    exact Rows.eq_of_key hr (Rows.get?_eq_some.1 hv).1 hid
  | count v =>
    simp only [next] at hnext
    split at hnext <;> cases hnext
    next hunused =>
    refine .of_found rfl rfl (fun v' hv' => ?_) fun v' hv' t ht horg hkey => ?_
    · cases hv'
      exact h.same v rfl
    · cases hv'
      exact hunused (horg ▸ usageCount_pos hstored ht hkey)
  | remove v =>
    simp only [next] at hnext
    split at hnext <;> cases hnext
    · exact .of_found rfl rfl h.same h.counted
    · exact .of_found rfl rfl h.same h.counted
  | insertCommit | rewriteCommit | deleteCommit | returned | failed => cases hnext

/-- Where a transaction ends, and from where it commits. -/
def Ends (p : Phase) : Move Key Write Phase → Prop
  | .run _ _ _ => True
  | .rollback q => q.Quiet
  | .commit q => q.Quiet ∧
    ((∃ n, p = .insertCommit n) ∨ (∃ n, p = .rewriteCommit n) ∨ ∃ v gone, p = .deleteCommit v gone)

theorem next_ends {env : Env} {db : Db} {m : Move Key Write Phase} (h : next env db p = some m) :
    Ends p m := by
  cases p with
  | insertCommit n =>
    cases h
    exact ⟨⟨rfl, rfl, rfl, rfl⟩, .inl ⟨n, rfl⟩⟩
  | rewriteCommit n =>
    cases h
    exact ⟨⟨rfl, rfl, rfl, rfl⟩, .inr (.inl ⟨n, rfl⟩)⟩
  | deleteCommit v gone =>
    cases h
    exact ⟨⟨rfl, rfl, rfl, rfl⟩, .inr (.inr ⟨v, gone, rfl⟩)⟩
  | create n | update n =>
    simp only [next, validate] at h
    split at h <;> cases h
    · trivial
    · exact ⟨rfl, rfl, rfl, rfl⟩
  | insert n | count v =>
    simp only [next] at h
    split at h <;> cases h
    · exact ⟨rfl, rfl, rfl, rfl⟩
    · trivial
  | rewrite n =>
    simp only [next] at h
    split at h <;> cases h
    · trivial
    · exact ⟨rfl, rfl, rfl, rfl⟩
  | delete org id =>
    simp only [next] at h
    split at h <;> cases h
    · trivial
    · exact ⟨rfl, rfl, rfl, rfl⟩
  | remove v =>
    simp only [next] at h
    split at h <;> cases h <;> trivial
  | returned | failed => cases h

structure Inv (env : Env) (s : State) : Prop where
  traced : Traced written (fun _ => []) s
  stored : Stored env s.db
  sound : ∀ (i : Nat) (x : Session Key Write Phase), s.sessions[i]? = some x → Sound s.db x.phase

theorem inv_init {env : Env} {db : Db} (hdb : Stored env db) : Inv env ⟨db, []⟩ := by
  refine ⟨⟨?_, ?_, ?_⟩, hdb, ?_⟩
  · intro i j x y k hx
    cases hx
  all_goals
    intro i x hx
    cases hx

variable {org : OrgId} {check : CheckSpec} {db' : Db} {n : Save} {s : State}

theorem owned_insertTarget {db : Db} {id : Uuid} (t : StoredTarget)
    (h : (db.targets.get? id).any (fun t => t.orgId == org) = true) :
    ((db.apply (.insertTarget t)).targets.get? id).any (fun t => t.orgId == org) = true := by
  obtain ⟨t', ht', horg⟩ := (Option.any_eq_true _ _).mp h
  exact (Option.any_eq_true _ _).mpr ⟨t', Rows.get?_insert_of_some ht', horg⟩

theorem owned_setCheck {db : Db} {id id' : Uuid}
    (h : (db.targets.get? id).any (fun t => t.orgId == org) = true) :
    ((db.apply (.setCheck id' check)).targets.get? id).any (fun t => t.orgId == org) = true := by
  obtain ⟨t, ht, horg⟩ := (Option.any_eq_true _ _).mp h
  simp only [Db.apply, Rows.get?_update, ht, Option.map_some, Option.any_some]
  split
  · exact horg
  · exact horg

theorem mem_setCheck {db : Db} {id : Uuid} (h : t ∈ (db.apply (.setCheck id check)).targets.rows) :
    t ∈ db.targets.rows ∨ ∃ t₀, db.targets.get? id = some t₀ ∧ t = { t₀ with check := check } := by
  have hf : ∀ t : StoredTarget, ({ t with check := check } : StoredTarget).id = t.id := fun _ => rfl
  have hmem : t ∈ (db.targets.update (fun t => t.id == id) (fun t => { t with check := check })
      hf).rows := h
  rcases Rows.mem_update hmem with ht | ⟨t₀, ht₀, hid, rfl⟩
  · exact .inl ht
  · exact .inr ⟨t₀, Rows.get?_eq_some.2 ⟨ht₀, beq_iff_eq.mp hid⟩, rfl⟩

theorem Sound.saved {db : Db} (h : Sound db p) (hvariables : db'.orgVariables = db.orgVariables)
    (hgone : db'.gone = db.gone)
    (htargets : ∀ t ∈ db'.targets.rows, t ∈ db.targets.rows ∨ t.orgId = n.org ∧ t.check = n.check)
    (howned : ∀ id org, (db.targets.get? id).any (fun t => t.orgId == org) = true →
      (db'.targets.get? id).any (fun t => t.orgId == org) = true)
    (hok : ∀ k ∈ n.check.keys, ∀ v ∈ p.counted, v.orgId = n.org → v.key ≠ k) : Sound db' p := by
  refine ⟨fun n' hn => ?_, fun n' hn => howned _ _ (h.rewriting n' hn), ?_,
    fun v hv t ht horg hkey => ?_⟩
  · unfold Save.Checked Db.has Db.lost
    rw [hvariables, hgone]
    exact h.checked n' hn
  · rw [hvariables]
    exact h.same
  · rcases htargets t ht with ht | ⟨horg', hcheck⟩
    · exact h.counted v hv t ht horg hkey
    · rw [hcheck] at hkey
      exact hok v.key hkey v hv (horg.symm.trans horg') rfl

theorem Stored.saved {env : Env} {db : Db} (h : Stored env db)
    (hvariables : db'.orgVariables = db.orgVariables)
    (htargets : ∀ t ∈ db'.targets.rows, t ∈ db.targets.rows ∨ t.orgId = n.org ∧ t.check = n.check)
    (hplain : PlainlySpelled env n.check) (hok : ∀ k ∈ n.check.keys, db.has n.org k = true) :
    Stored env db' := by
  have hhas : ∀ org k, db'.has org k = db.has org k := by
    intro org k
    unfold Db.has
    rw [hvariables]
  intro t ht
  rcases htargets t ht with ht | ⟨horg, hcheck⟩
  · exact ⟨(h t ht).1, fun k hk => (hhas _ _).trans ((h t ht).2 k hk)⟩
  · rw [horg, hcheck]
    exact ⟨hplain, fun k hk => (hhas _ _).trans (hok k hk)⟩

theorem Stored.deleted {env : Env} {db : Db} {v : Variable} (h : Stored env db)
    (hsame : ∀ r ∈ db.orgVariables.rows, r.id = v.id → r = v)
    (hcounted : ∀ t ∈ db.targets.rows, t.orgId = v.orgId → v.key ∉ t.check.keys) :
    Stored env (db.apply (.deleteVariable v.id)) := by
  refine fun t ht => ⟨(h t ht).1, fun k hk => ?_⟩
  obtain ⟨r, hr, hrk⟩ := List.any_eq_true.mp ((h t ht).2 k hk)
  refine List.any_eq_true.mpr ⟨r, Rows.mem_delete.2 ⟨hr, ?_⟩, hrk⟩
  rw [beq_eq_false_iff_ne]
  intro hid
  obtain rfl : r = v := hsame r hr hid
  obtain ⟨horg, hkey⟩ := Bool.and_eq_true_iff.mp hrk
  refine hcounted t ht (beq_iff_eq.mp horg).symm ?_
  rw [beq_iff_eq.mp hkey]
  exact hk

/-- A variable that is deleted is lost. -/
theorem Save.Checked.deleted {db : Db} (h : n.Checked db) (id : Uuid) :
    n.Checked (db.apply (.deleteVariable id)) := by
  intro k hk
  rcases h k hk with hhas | hlost
  · obtain ⟨v, hv, hvk⟩ := List.any_eq_true.mp hhas
    by_cases hid : (v.id == id) = true
    · exact .inr (List.any_eq_true.mpr
        ⟨v, List.mem_append_right _ (List.mem_filter.mpr ⟨hv, hid⟩), hvk⟩)
    · exact .inl (List.any_eq_true.mpr
        ⟨v, Rows.mem_delete.2 ⟨hv, Bool.eq_false_iff.mpr hid⟩, hvk⟩)
  · obtain ⟨v, hv, hvk⟩ := List.any_eq_true.mp hlost
    exact .inr (List.any_eq_true.mpr ⟨v, List.mem_append_left _ hv, hvk⟩)

theorem Sound.deleted {db : Db} (h : Sound db p) (id : Uuid) :
    Sound (db.apply (.deleteVariable id)) p :=
  ⟨fun n hn => (h.checked n hn).deleted id, h.rewriting, fun v hv r hr => h.same v hv r (Rows.mem_delete.1 hr).1, h.counted⟩

theorem Inv.commit {env : Env} (h : Inv env s) {i : Nat} {x : Session Key Write Phase}
    (hx : s.sessions[i]? = some x) (hok : Unraced env s (.go i))
    (hnext : (code env).nextOf s x = some (.commit q)) :
    Stored env ((code env).view s.db x.pending) ∧
      ∀ (j : Nat) (y : Session Key Write Phase), s.sessions[j]? = some y →
        Sound ((code env).view s.db x.pending) y.phase := by
  have hpending := h.traced.pending i x hx
  have hsaved : ∀ (n : Save) (db' : Db), n ∈ x.phase.saving → n ∈ x.phase.checked →
      db'.orgVariables = s.db.orgVariables → db'.gone = s.db.gone →
      (∀ t ∈ db'.targets.rows, t ∈ s.db.targets.rows ∨ t.orgId = n.org ∧ t.check = n.check) →
      (∀ id org, (s.db.targets.get? id).any (fun t => t.orgId == org) = true →
        (db'.targets.get? id).any (fun t => t.orgId == org) = true) →
      Stored env db' ∧ ∀ (j : Nat) (y : Session Key Write Phase), s.sessions[j]? = some y →
        Sound db' y.phase := by
    intro n db' hn hchecked hvariables hgone htargets howned
    obtain ⟨hplain, hkeys⟩ := hok x n hx hn
    refine ⟨h.stored.saved hvariables htargets hplain fun k hk => ?_,
      fun j y hy => (h.sound j y hy).saved hvariables hgone htargets howned fun k hk => ?_⟩
    · rcases (h.sound i x hx).checked n hchecked k hk with hhas | hlost
      · exact hhas
      · rw [(hkeys k hk).1] at hlost
        cases hlost
    · exact (hkeys k hk).2 j y hy
  obtain ⟨-, ⟨n, hp⟩ | ⟨n, hp⟩ | ⟨v, gone, hp⟩⟩ := next_ends hnext <;>
    rw [hp] at hpending <;> rw [hpending]
  · refine hsaved n (s.db.apply (.insertTarget ⟨n.id, n.org, n.check⟩)) (by rw [hp]; rfl)
      (by rw [hp]; rfl) rfl rfl
      (fun t ht => ?_) fun id org => owned_insertTarget _
    rcases Rows.mem_insert ht with ht | rfl
    · exact .inl ht
    · exact .inr ⟨rfl, rfl⟩
  · have howned := (h.sound i x hx).rewriting n (by rw [hp]; rfl)
    refine hsaved n (s.db.apply (.setCheck n.id n.check)) (by rw [hp]; rfl) (by rw [hp]; rfl)
      rfl rfl (fun t ht => ?_) fun id org => owned_setCheck
    rcases mem_setCheck ht with ht | ⟨t₀, ht₀, rfl⟩
    · exact .inl ht
    · rw [ht₀, Option.any_some] at howned
      exact .inr ⟨beq_iff_eq.mp howned, rfl⟩
  · have hv := h.sound i x hx
    rw [hp] at hv
    cases gone with
    | false => exact ⟨h.stored, h.sound⟩
    | true =>
      exact ⟨h.stored.deleted (hv.same v rfl) (hv.counted v rfl),
        fun j y hy => (h.sound j y hy).deleted v.id⟩

theorem inv_step {env : Env} {s' : State} {e : Event} (h : Inv env s) (hok : Unraced env s e)
    (heq : (code env).step s e = some s') : Inv env s' := by
  have htraced := (annotated env).traced (starts env) h.traced heq
  cases Code.stepped heq with
  | begin request =>
    refine ⟨htraced, h.stored, fun j y hy => ?_⟩
    rcases getElem?_snoc_cases hy with hy | ⟨-, rfl⟩
    · exact h.sound j y hy
    · have hquiet : request.first.Quiet := by cases request <;> exact ⟨rfl, rfl, rfl, rfl⟩
      exact hquiet.sound s.db
  | run hx hnext hfree =>
    refine ⟨htraced, h.stored, forall_put (P := fun x => Sound s.db x.phase) ?_ h.sound⟩
    have hnext' := hnext
    unfold Code.nextOf at hnext'
    rw [h.traced.pending _ _ hx] at hnext'
    exact (h.sound _ _ hx).run h.stored hnext'
  | commit hx hnext =>
    obtain ⟨hstored, hsound⟩ := h.commit hx hok hnext
    exact ⟨htraced, hstored, forall_put ((next_ends hnext).1.sound _) hsound⟩
  | rollback hx hnext =>
    exact ⟨htraced, h.stored, forall_put (Phase.Quiet.sound (next_ends hnext) _) h.sound⟩
  | abort hx hnext =>
    exact ⟨htraced, h.stored, forall_put (Phase.Quiet.sound ⟨rfl, rfl, rfl, rfl⟩ _) h.sound⟩
  | outer o => cases o

/-- **A referenced variable is not deleted** in a run whose saves are plainly spelled, and none of
which commits a reference behind the back of a delete: each variable that a stored check asks for
is there, and its delete refused. -/
theorem referenced_variable_kept (env : Env) (db : Db) (s : State) (hdb : Stored env db)
    (h : Run (code env).step (Unraced env) ⟨db, []⟩ s) :
    (∀ t ∈ s.db.targets.rows, ∀ k ∈ t.check.keys, s.db.has t.orgId k = true) ∧
      ∀ t ∈ s.db.targets.rows, ∀ v : Variable, v.orgId = t.orgId → v.key ∈ t.check.keys →
        0 < s.db.usageCount env v.orgId v.key ∧ next env s.db (.count v) =
          some (.rollback (.returned (.inUse (s.db.usageCount env v.orgId v.key)))) := by
  have hinv := h.invariant (inv_init hdb) fun _ _ _ hi hok hstep => inv_step hi hok hstep
  refine ⟨fun t ht => (hinv.stored t ht).2, fun t ht v horg hkey => ?_⟩
  have hpos : 0 < s.db.usageCount env v.orgId v.key := by
    rw [horg]
    exact usageCount_pos hinv.stored ht hkey
  exact ⟨hpos, if_pos hpos⟩

namespace One

def spaces : SpaceClass where
  chars := [' ', '\t', '\n', Char.ofNat 11, Char.ofNat 12, '\r']
  ascii := by
    have h : ∀ n < 128, Char.ofNat n ∈ [' ', '\t', '\n', Char.ofNat 11, Char.ofNat 12, '\r'] ↔
        Char.ofNat n = ' ' ∨ (9 ≤ (Char.ofNat n).toNat ∧ (Char.ofNat n).toNat ≤ 13) := by
      decide
    intro c hc
    simpa only [Char.ofNat_toNat] using h c.toNat hc

def env : Env := ⟨spaces, some, id, some⟩

def variableK : Variable := ⟨3, 1, "k", true, "s3cr3t", by decide⟩

def db : Db := ⟨⟨[variableK], by decide⟩, .empty, []⟩

theorem stored_db : Stored env db := fun _ ht => absurd ht List.not_mem_nil

/-- A flow that types the value into a form. -/
def login (value : String) : CheckSpec :=
  .flow ⟨"https://app.x/login", [.fill "#pw" value], 30000, 5000, true⟩

def save (value : String) : Event := .begin (.create ⟨1, 7, login value⟩)

def delete : Event := .begin (.delete 1 3)

def goes (i n : Nat) : List Event := List.replicate n (.go i)

def inTurn : List Event := save "\x7b\x7bk\x7d\x7d" :: goes 0 3 ++ delete :: goes 1 2

/-- The same with a tab before the key: the delete goes through. -/
def tab : List Event := save "\x7b\x7b\tk\x7d\x7d" :: goes 0 3 ++ delete :: goes 1 4

def ended (s : State) (outcomes : List Outcome) : Bool :=
  (s.sessions.map fun x => match x.phase with
    | .returned outcome => some outcome
    | _ => none) == outcomes.map some

def dangles (s : State) : Bool :=
  s.db.targets.rows.any fun t => t.check.keys.any fun k => !s.db.has t.orgId k

theorem of_dangles {s : State} (h : dangles s = true) :
    ∃ t ∈ s.db.targets.rows, ∃ k ∈ t.check.keys, s.db.has t.orgId k = false := by
  obtain ⟨t, ht, h⟩ := List.any_eq_true.mp h
  obtain ⟨k, hk, h⟩ := List.any_eq_true.mp h
  exact ⟨t, ht, k, hk, (Bool.not_eq_true' _).mp h⟩

/-- The guard of a step that saves this very check, evaluated. -/
def unraced (s : State) : Event → Bool
  | .go i =>
    match s.sessions[i]?.bind fun x => x.phase.saving with
    | some n => n.check == login "\x7b\x7bk\x7d\x7d" && n.check.keys.all fun k =>
      !s.db.lost n.org k && s.sessions.all fun y => y.phase.counted.all fun v =>
        !(v.orgId == n.org) || !(v.key == k)
    | none => true
  | _ => true

theorem plainlySpelled_login : PlainlySpelled env (login "\x7b\x7bk\x7d\x7d") := by
  intro key hkey
  have hkeys : (login "\x7b\x7bk\x7d\x7d").keys = ["k"] := by decide +kernel
  rw [hkeys, List.mem_singleton] at hkey
  subst hkey
  refine ⟨⟨.stepValue, "\x7b\x7bk\x7d\x7d"⟩, List.mem_singleton.mpr rfl, by decide +kernel, ?_⟩
  rintro w ⟨hopening, hclosing⟩ - hwrite
  have hlen : (w.write "k").length ≤ 5 := hwrite.length_le
  simp only [Spelling.write, Spelling.content, hopening, hclosing, opens, closes,
    List.length_append] at hlen
  rw [show "k".toList.length = 1 by decide] at hlen
  simp only [List.length_cons, List.length_nil] at hlen
  have hbefore : w.before = [] := List.length_eq_zero_iff.mp (by omega)
  have hafter : w.after = [] := List.length_eq_zero_iff.mp (by omega)
  refine .literal hopening hclosing fun c hc => ?_
  rw [hbefore, hafter] at hc
  cases hc

theorem unraced_of (s : State) (e : Event) (h : unraced s e = true) : Unraced env s e := by
  cases e with
  | go i =>
    intro x n hx hn
    simp only [unraced, hx, Option.bind_some, Option.mem_def.mp hn, Bool.and_eq_true,
      beq_iff_eq] at h
    obtain ⟨hcheck, hkeys⟩ := h
    rw [hcheck] at hkeys ⊢
    refine ⟨plainlySpelled_login, fun k hk => ?_⟩
    obtain ⟨hkept, hcounted⟩ := Bool.and_eq_true_iff.mp (List.all_eq_true.mp hkeys k hk)
    refine ⟨(Bool.not_eq_true' _).mp hkept, fun j y hy v hv horg hkey => ?_⟩
    have hall := List.all_eq_true.mp hcounted y (List.mem_of_getElem? hy)
    rw [Option.mem_def.mp hv, Option.all_some] at hall
    simp [horg, hkey] at hall
  | _ => trivial

end One

theorem referenced_variable_kept_inTurn : ∃ s : State,
    (One.ended s [.saved, .inUse 1] && s.db.targets.rows.map (fun t => t.check.keys) == [["k"]]) =
      true ∧ ∀ t ∈ s.db.targets.rows, ∀ k ∈ t.check.keys, s.db.has t.orgId k = true := by
  have h : (steps (guarded (code One.env).step One.unraced) ⟨One.db, []⟩ One.inTurn).any
      (fun s => One.ended s [.saved, .inUse 1] &&
        s.db.targets.rows.map (fun t => t.check.keys) == [["k"]]) = true := by
    decide +kernel
  obtain ⟨s, hrun, hs⟩ := exists_run_of_steps h
  exact ⟨s, hs, (referenced_variable_kept One.env One.db s One.stored_db
    (hrun.unguard One.unraced_of)).1⟩

/-- Nobody is in the way of the delete, and nothing is counted: the tab is `\t` in the stored
text. -/
theorem tab_is_not_counted : ∃ s : State,
    Run (code One.env).step (fun _ _ => True) ⟨One.db, []⟩ s ∧
      One.ended s [.saved, .deleted] = true ∧
      ∃ t ∈ s.db.targets.rows, ∃ k ∈ t.check.keys, s.db.has t.orgId k = false := by
  have h : (steps (code One.env).step ⟨One.db, []⟩ One.tab).any
      (fun s => One.ended s [.saved, .deleted] && One.dangles s) = true := by
    decide +kernel
  obtain ⟨s, hrun, hs⟩ := exists_run_of_steps h
  obtain ⟨hended, hdangles⟩ := Bool.and_eq_true_iff.mp hs
  exact ⟨s, hrun, hended, One.of_dangles hdangles⟩

end Uptimepage.Variables
