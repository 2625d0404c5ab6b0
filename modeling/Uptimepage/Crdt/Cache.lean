import Uptimepage.Async.Run
import Uptimepage.Crdt.Register

/-!
# A cache that merges what it hears of a store

A store of rows, each read as a value of a register.  A write may report the row it leaves, a
read of the table takes a snapshot, and what was reported or read is merged into a cache later,
in any order; an id that a snapshot lacks is dropped from the cache.
-/

namespace Crdt

open Async

structure Store (Row Write S : Type) where
  apply : Row → Write → Row
  /-- Whether the writer tells the node that it works for. -/
  reports : Write → Bool
  accepted : Row → S
  snapshot : Row → S
  same : ∀ row, snapshot row = accepted row

/-- What is under way to the cache. -/
inductive Call (Id S : Type)
  | record (id : Id) (view : S)
  | sync (fresh : Id → Option S)

structure State (Id Row S : Type) where
  rows : Id → Row
  cache : Id → Option S
  flying : List (Call Id S)
  /-- A history variable: what was merged into the entry since it was last dropped. -/
  heard : Id → List S

inductive Label (Id Write : Type)
  /-- `here`: for the node that has the cache. -/
  | write (id : Id) (w : Write) (here : Bool)
  /-- The snapshot lacks the ids that are `gone`. -/
  | read (gone : Id → Bool)
  | deliver (k : Nat)

def Label.written {Id Write : Type} : Label Id Write → Option (Id × Write)
  | .write id w _ => some (id, w)
  | _ => none

def writesOf {Id Write : Type} (ls : List (Label Id Write)) : List (Id × Write) :=
  ls.filterMap Label.written

variable {Id Row Write S : Type} [DecidableEq Id]

def Call.view : Call Id S → Id → Option S
  | .record id view, id' => if id' = id then some view else none
  | .sync fresh, id' => fresh id'

/-- Whether an entry the call has nothing for is dropped. -/
def Call.prunes : Call Id S → Bool
  | .record _ _ => false
  | .sync _ => true

def Call.onHeard (call : Call Id S) (heard : Id → List S) (id : Id) : List S :=
  match call.view id with
  | some view => view :: heard id
  | none => if call.prunes then [] else heard id

section Heard
variable {call : Call Id S} {heard : Id → List S} {id : Id} {v : S}

theorem Call.onHeard_some (h : call.view id = some v) :
    call.onHeard heard id = v :: heard id := by
  unfold Call.onHeard
  rw [h]

theorem Call.onHeard_none (h : call.view id = none) :
    call.onHeard heard id = if call.prunes then [] else heard id := by
  unfold Call.onHeard
  rw [h]

theorem Call.mem_onHeard (h : v ∈ call.onHeard heard id) :
    call.view id = some v ∨ v ∈ heard id := by
  cases hview : call.view id with
  | some view =>
    rw [Call.onHeard_some hview] at h
    exact (List.mem_cons.mp h).imp_left fun heq => congrArg some heq.symm
  | none =>
    rw [Call.onHeard_none hview] at h
    split at h
    · cases h
    · exact .inr h

end Heard

variable [Register S] (store : Store Row Write S)

/-- The entry once `view` is merged into it. -/
def mergeInto : Option S → S → S
  | some cur, view => Register.merge cur view
  | none, view => view

def Call.onCache (call : Call Id S) (cache : Id → Option S) (id : Id) : Option S :=
  match call.view id with
  | some view => some (mergeInto (cache id) view)
  | none => if call.prunes then none else cache id

def State.start (rows : Id → Row) : State Id Row S := ⟨rows, fun _ => none, [], fun _ => []⟩

def Store.written (store : Store Row Write S) (rows : Id → Row) (id : Id) (w : Write) : Id → Row :=
  Function.update rows id (store.apply (rows id) w)

def Store.step (s : State Id Row S) : Label Id Write → Option (State Id Row S)
  | .write id w here =>
    let rows := store.written s.rows id w
    let told := if here && store.reports w then [.record id (store.accepted (rows id))] else []
    some { s with rows, flying := s.flying ++ told }
  | .read gone =>
    let fresh id := if gone id then none else some (store.snapshot (s.rows id))
    some { s with flying := s.flying ++ [.sync fresh] }
  | .deliver k =>
    s.flying[k]?.map fun call =>
      { s with
        cache := call.onCache s.cache
        flying := s.flying.eraseIdx k
        heard := call.onHeard s.heard }

/-! ## What is asked of a state -/

/-- A value that the row has now, or that is or was under way to the cache. -/
inductive State.Seen (s : State Id Row S) (id : Id) (v : S) : Prop
  | row (h : v = store.accepted (s.rows id))
  | heard (h : v ∈ s.heard id)
  | flying (call : Call Id S) (hmem : call ∈ s.flying) (h : call.view id = some v)

structure State.Agrees (s : State Id Row S) : Prop where
  /-- The cache shows the row once it has heard of it. -/
  shown : ∀ id, store.accepted (s.rows id) ∈ s.heard id →
    s.cache id = some (store.accepted (s.rows id))
  /-- A snapshot taken and applied now leaves it at the row. -/
  refreshed : ∀ id, mergeInto (s.cache id) (store.snapshot (s.rows id)) =
    store.snapshot (s.rows id)
  /-- Nothing heard is lost. -/
  kept : ∀ id, ∀ v ∈ s.heard id, ∃ c ∈ s.cache id, Covers c v
  comm : ∀ id a b, s.Seen store id a → s.Seen store id b →
    Register.merge a b = Register.merge b a

/-- No write makes the value of a row older. -/
def Store.Advances (rows : Id → Row) : List (Id × Write) → Prop
  | [] => True
  | (id, w) :: ws =>
    Older (store.accepted (rows id)) (store.accepted (store.apply (rows id) w)) ∧
      Store.Advances (store.written rows id w) ws

/-! ## The invariant -/

/-- The values of one id are a chain, with the row's at its top and the entry in it. -/
structure State.Chain (s : State Id Row S) : Prop where
  top : ∀ id v, s.Seen store id v → Older v (store.accepted (s.rows id))
  total : ∀ id a b, s.Seen store id a → s.Seen store id b → Older a b ∨ Older b a
  entry : ∀ id, ∀ c ∈ s.cache id, c ∈ s.heard id
  kept : ∀ id, ∀ v ∈ s.heard id, ∃ c ∈ s.cache id, Older v c

variable {store} {s : State Id Row S}

theorem State.Chain.start (rows : Id → Row) :
    (State.start rows : State Id Row S).Chain store := by
  have hseen (id : Id) (v : S) (h : (State.start rows : State Id Row S).Seen store id v) :
      v = store.accepted (rows id) := by
    cases h with
    | row h => exact h
    | heard h => cases h
    | flying call hmem h => cases hmem
  refine ⟨fun id v h => ?_, fun id a b ha hb => ?_, fun id => nofun, fun id => nofun⟩
  · rw [hseen id v h]
    exact .refl _
  · rw [hseen id a ha, hseen id b hb]
    exact .inl (.refl _)

theorem State.Chain.agrees (h : s.Chain store) : s.Agrees store where
  shown id hmem := by
    obtain ⟨c, hc, hle⟩ := h.kept id _ hmem
    have hge := h.top id c (.heard (h.entry id c hc))
    rw [hge.antisymm hle] at hc
    exact hc
  refreshed id := by
    rw [store.same]
    cases hc : s.cache id with
    | none => rfl
    | some c => exact h.top id c (.heard (h.entry id c hc))
  kept id v hv := by
    obtain ⟨c, hc, hle⟩ := h.kept id v hv
    exact ⟨c, hc, hle.covers⟩
  comm id a b ha hb := by
    rcases h.total id a b ha hb with hab | hba
    · exact hab.comm
    · exact hba.comm.symm

variable {s' : State Id Row S} {v : S} {call : Call Id S} {cache : Id → Option S}

theorem State.Chain.mono (h : s.Chain store)
    (hrow : ∀ id, Older (store.accepted (s.rows id)) (store.accepted (s'.rows id)))
    (hseen : ∀ id v, s'.Seen store id v →
      s.Seen store id v ∨ v = store.accepted (s'.rows id))
    (hcache : ∀ id, ∀ c ∈ s'.cache id, c ∈ s'.heard id)
    (hkept : ∀ id, ∀ v ∈ s'.heard id, ∃ c ∈ s'.cache id, Older v c) : s'.Chain store := by
  have htop (id : Id) (v : S) (hv : s'.Seen store id v) :
      Older v (store.accepted (s'.rows id)) := by
    rcases hseen id v hv with hv | rfl
    · exact (h.top id v hv).trans (hrow id)
    · exact .refl _
  refine ⟨htop, fun id a b ha hb => ?_, hcache, hkept⟩
  rcases hseen id a ha with ha' | rfl
  · rcases hseen id b hb with hb' | rfl
    · exact h.total id a b ha' hb'
    · exact .inl (htop id a ha)
  · exact .inr (htop id b hb)

/-! ## One step -/

theorem merge_of_total {c : S} (h : Older c v ∨ Older v c) :
    Older c (Register.merge c v) ∧ Older v (Register.merge c v) ∧
      (Register.merge c v = c ∨ Register.merge c v = v) := by
  refine ⟨older_merge c v, ?_⟩
  rcases h with h | h
  · have heq : Register.merge c v = v := h
    rw [heq]
    exact ⟨.refl v, .inr rfl⟩
  · have heq : Register.merge c v = c := h.covers
    rw [heq]
    exact ⟨h, .inl rfl⟩

theorem Call.onCache_some {id : Id} (h : call.view id = some v) :
    call.onCache cache id = some (mergeInto (cache id) v) := by
  unfold Call.onCache
  rw [h]

theorem Call.onCache_none {id : Id} (h : call.view id = none) :
    call.onCache cache id = if call.prunes then none else cache id := by
  unfold Call.onCache
  rw [h]

theorem State.Chain.write (h : s.Chain store) {id : Id} {w : Write} {told : List (Call Id S)}
    (hw : Older (store.accepted (s.rows id)) (store.accepted (store.apply (s.rows id) w)))
    (htold : ∀ call ∈ told, ∀ id' v, call.view id' = some v →
      v = store.accepted (store.written s.rows id w id')) :
    State.Chain store
      { s with rows := store.written s.rows id w, flying := s.flying ++ told } := by
  have hrow (id' : Id) : Older (store.accepted (s.rows id'))
      (store.accepted (store.written s.rows id w id')) := by
    unfold Store.written
    by_cases heq : id' = id
    · subst heq
      rw [Function.update_self]
      exact hw
    · rw [Function.update_of_ne heq]
      exact .refl _
  refine h.mono hrow ?_ h.entry h.kept
  intro id' v hv
  cases hv with
  | row hv => exact .inr hv
  | heard hv => exact .inl (.heard hv)
  | flying call hmem hv =>
    rcases List.mem_append.mp hmem with hmem | hmem
    · exact .inl (.flying call hmem hv)
    · exact .inr (htold call hmem id' v hv)

theorem State.Chain.deliver (h : s.Chain store) {k : Nat} (hk : s.flying[k]? = some call) :
    State.Chain store
      { s with
        cache := call.onCache s.cache
        flying := s.flying.eraseIdx k
        heard := call.onHeard s.heard } := by
  have hmem : call ∈ s.flying := List.mem_of_getElem? hk
  refine h.mono (fun _ => .refl _) ?_ ?_ ?_
  · intro id v hv
    cases hv with
    | row hv => exact .inr hv
    | flying call' hmem' hv => exact .inl (.flying call' (List.mem_of_mem_eraseIdx hmem') hv)
    | heard hv =>
      rcases Call.mem_onHeard hv with hview | hv
      · exact .inl (.flying call hmem hview)
      · exact .inl (.heard hv)
  · intro id c (hc : call.onCache s.cache id = some c)
    show c ∈ call.onHeard s.heard id
    cases hview : call.view id with
    | some view =>
      rw [Call.onCache_some hview] at hc
      rw [Call.onHeard_some hview]
      cases hc
      cases hentry : s.cache id with
      | none => exact List.mem_cons_self
      | some cur =>
        have hcur := h.entry id cur hentry
        have hcomp := h.total id cur view (.heard hcur) (.flying call hmem hview)
        show Register.merge cur view ∈ view :: s.heard id
        rcases (merge_of_total hcomp).2.2 with heq | heq
        · rw [heq]
          exact List.mem_cons_of_mem _ hcur
        · rw [heq]
          exact List.mem_cons_self
    | none =>
      rw [Call.onCache_none hview] at hc
      rw [Call.onHeard_none hview]
      split at hc
      · cases hc
      · next hprune =>
        rw [if_neg hprune]
        exact h.entry id c hc
  · intro id v (hv : v ∈ call.onHeard s.heard id)
    show ∃ c ∈ call.onCache s.cache id, Older v c
    cases hview : call.view id with
    | some view =>
      rw [Call.onHeard_some hview] at hv
      rw [Call.onCache_some hview]
      refine ⟨_, rfl, ?_⟩
      cases hentry : s.cache id with
      | none =>
        rcases List.mem_cons.mp hv with rfl | hv
        · exact .refl _
        · obtain ⟨c, hc, -⟩ := h.kept id v hv
          rw [hentry] at hc
          cases hc
      | some cur =>
        have hcomp := h.total id cur view (.heard (h.entry id cur hentry))
          (.flying call hmem hview)
        obtain ⟨hcur, hview', -⟩ := merge_of_total hcomp
        rcases List.mem_cons.mp hv with rfl | hv
        · exact hview'
        · obtain ⟨c, hc, hle⟩ := h.kept id v hv
          rw [hentry] at hc
          cases hc
          exact hle.trans hcur
    | none =>
      rw [Call.onHeard_none hview] at hv
      rw [Call.onCache_none hview]
      split at hv
      · cases hv
      · next hprune =>
        rw [if_neg hprune]
        exact h.kept id v hv

/-- What a step asks of a write. -/
def Label.Ok (store : Store Row Write S) (s : State Id Row S) : Label Id Write → Prop
  | .write id w _ => Older (store.accepted (s.rows id)) (store.accepted (store.apply (s.rows id) w))
  | _ => True

theorem State.Chain.step {l : Label Id Write} (h : s.Chain store) (hl : l.Ok store s)
    (hs : store.step s l = some s') : s'.Chain store := by
  cases l with
  | write id w here =>
    cases hs
    apply h.write hl
    intro call hmem id' v hv
    split at hmem
    · cases List.mem_singleton.mp hmem
      have hview : (if id' = id then some (store.accepted (store.written s.rows id w id)) else none) =
          some v := hv
      split at hview
      · next heq =>
        cases hview
        rw [heq]
      · cases hview
    · cases hmem
  | read gone =>
    cases hs
    refine h.mono (fun _ => .refl _) ?_ h.entry h.kept
    intro id v hv
    cases hv with
    | row hv => exact .inr hv
    | heard hv => exact .inl (.heard hv)
    | flying call hmem hv =>
      rcases List.mem_append.mp hmem with hmem | hmem
      · exact .inl (.flying call hmem hv)
      · cases List.mem_singleton.mp hmem
        have hfresh : (if gone id then none else some (store.snapshot (s.rows id))) = some v := hv
        split at hfresh
        · cases hfresh
        · cases hfresh
          exact .inr (store.same _)
  | deliver k =>
    obtain ⟨call, hk, rfl⟩ := Option.map_eq_some_iff.mp hs
    exact h.deliver hk

/-! ## Every order -/

theorem State.Chain.throughout (h : s.Chain store) {ls : List (Label Id Write)}
    (hadv : store.Advances s.rows (writesOf ls)) :
    Throughout store.step (State.Agrees store) s ls := by
  induction ls generalizing s with
  | nil => exact h.agrees
  | cons l ls ih =>
    refine ⟨h.agrees, fun s' hs => ?_⟩
    have hl : l.Ok store s := by
      cases l with
      | write id w here => exact hadv.1
      | read gone => trivial
      | deliver k => trivial
    apply ih (h.step hl hs)
    cases l with
    | write id w here =>
      cases hs
      exact hadv.2
    | read gone =>
      cases hs
      exact hadv
    | deliver k =>
      obtain ⟨call, hk, rfl⟩ := Option.map_eq_some_iff.mp hs
      exact hadv

theorem advances_of_agrees {ws : List (Id × Write)} (hs : s.flying = [])
    (h : ∀ ls, writesOf ls = ws → Throughout store.step (State.Agrees store) s ls) :
    store.Advances s.rows ws := by
  induction ws generalizing s with
  | nil => trivial
  | cons x ws ih =>
    obtain ⟨id, w⟩ := x
    let fresh (id : Id) : Option S := some (store.snapshot (s.rows id))
    let s₂ : State Id Row S :=
      { s with
        cache := (Call.sync fresh).onCache s.cache
        heard := (Call.sync fresh).onHeard s.heard }
    let s₃ : State Id Row S := { s₂ with rows := store.written s.rows id w }
    have hread : store.step s (.read fun _ => false : Label Id Write) =
        some { s with flying := [.sync fresh] } := by
      simp only [Store.step, hs]
      rfl
    have hdeliver : store.step { s with flying := [.sync fresh] } (.deliver 0 : Label Id Write) =
        some s₂ := by
      simp only [Store.step, s₂, hs]
      rfl
    have hwrite : store.step s₂ (.write id w false) = some s₃ := by
      simp [Store.step, s₂, s₃]
    have hall (ls : List (Label Id Write)) (hls : writesOf ls = ws) :=
      ((((h (.read (fun _ => false) :: .deliver 0 :: .write id w false :: ls)
        (congrArg ((id, w) :: ·) hls)).2 _ hread).2 _ hdeliver))
    have hmap : writesOf (ws.map fun x => .write x.1 x.2 false) = ws := by
      unfold writesOf
      rw [List.filterMap_map]
      exact List.filterMap_some
    have hheard : store.accepted (s₂.rows id) ∈ s₂.heard id := by
      rw [← store.same]
      exact List.mem_cons_self
    have hshown := (hall _ hmap).here.shown id hheard
    have hfresh := ((hall _ hmap).2 _ hwrite).here.refreshed id
    have hrow : s₃.rows id = store.apply (s.rows id) w := Function.update_self ..
    constructor
    · have hentry : s₃.cache id = some (store.accepted (s.rows id)) := hshown
      rw [hentry, hrow, store.same] at hfresh
      exact hfresh
    · exact ih (s := s₃) hs fun ls hls => (hall ls hls).2 _ hwrite

theorem agrees_iff (rows : Id → Row) (ws : List (Id × Write)) :
    (∀ ls, writesOf ls = ws → Throughout store.step (State.Agrees store) (.start rows) ls) ↔
      store.Advances rows ws := by
  constructor
  · exact advances_of_agrees rfl
  · rintro h ls rfl
    exact (State.Chain.start rows).throughout h

end Crdt
