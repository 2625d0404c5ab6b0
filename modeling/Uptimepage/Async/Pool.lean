import Uptimepage.Async.Prog
import Uptimepage.Async.Slots

/-!
# Task pools and rely-guarantee reasoning

A `Machine` says what one call does to the shared store, given the environment's
choice for that step (how long it took, whether it failed, what the outside world
answered).  A `World` is the store with the history of the calls made on it; a
`Pool` adds the tasks, each with what is left of its program.
-/

namespace Async

variable {S : Sig} {α β : Type}

structure Machine (S : Sig) where
  State : Type
  Choice : Type
  /-- `none` while the call has to wait (a lock held by another task). -/
  call : Nat → (o : S.Op) → Choice → State → Option (S.Res o × State)

/-- One call a task made, with its answer. -/
structure Entry (S : Sig) where
  task : Nat
  op : S.Op
  res : S.Res op

/-- The store, the tags of the tasks ever started, and their calls, newest first. -/
structure World (M : Machine S) (Tag : Type) where
  store : M.State
  tags : List Tag
  log : List (Entry S)

variable {M : Machine S} {Tag : Type}

def World.call (w : World M Tag) (me : Nat) (o : S.Op) (c : M.Choice) :
    Option (S.Res o × World M Tag) :=
  match M.call me o c w.store with
  | none => none
  | some (r, s) => some (r, { w with store := s, log := ⟨me, o, r⟩ :: w.log })

theorem World.call_eq_some {w w' : World M Tag} {me : Nat} {o : S.Op} {c : M.Choice}
    {r : S.Res o} (h : w.call me o c = some (r, w')) :
    M.call me o c w.store = some (r, w'.store) ∧ w'.tags = w.tags ∧
      w'.log = ⟨me, o, r⟩ :: w.log := by
  unfold World.call at h
  split at h
  · cases h
  · next heq =>
    simp only [Option.some.injEq, Prod.mk.injEq] at h
    obtain ⟨rfl, rfl⟩ := h
    exact ⟨heq, rfl, rfl⟩

theorem World.call_of_some {w : World M Tag} {me : Nat} {o : S.Op} {c : M.Choice} {r : S.Res o}
    {s : M.State} (h : M.call me o c w.store = some (r, s)) :
    w.call me o c = some (r, { w with store := s, log := ⟨me, o, r⟩ :: w.log }) := by
  simp only [World.call, h]

/-! ## Contracts -/

/-- What a task relies on between its calls, what is assumed of each of its calls,
and what it guarantees of them. -/
structure Contract (M : Machine S) (Tag : Type) where
  rely : World M Tag → World M Tag → Prop
  assume : (o : S.Op) → World M Tag → S.Res o → World M Tag → Prop
  guar : (o : S.Op) → World M Tag → S.Res o → World M Tag → Prop
  rely_refl : ∀ w, rely w w
  rely_trans : ∀ {w₁ w₂ w₃}, rely w₁ w₂ → rely w₂ w₃ → rely w₁ w₃

namespace Contract

variable (K : Contract M Tag) (me : Nat)

def wp : Prog S α → (α → World M Tag → Prop) → World M Tag → Prop
  | .ret a, Q, w => ∀ w', K.rely w w' → Q a w'
  | .call o k, Q, w => ∀ w₁, K.rely w w₁ → ∀ c r w₂, w₁.call me o c = some (r, w₂) →
      K.assume o w₁ r w₂ → K.guar o w₁ r w₂ ∧ wp (k r) Q w₂

variable {K me}

theorem wp_stable {Q : α → World M Tag → Prop} {w w' : World M Tag} :
    ∀ {p : Prog S α}, K.wp me p Q w → K.rely w w' → K.wp me p Q w'
  | .ret _, h, hr => fun _ h' => h _ (K.rely_trans hr h')
  | .call _ _, h, hr => fun w₁ h₁ => h w₁ (K.rely_trans hr h₁)

theorem wp_mono {Q Q' : α → World M Tag → Prop} (hQ : ∀ a w, Q a w → Q' a w) :
    ∀ {p : Prog S α} {w : World M Tag}, K.wp me p Q w → K.wp me p Q' w
  | .ret a, _, h => fun w' hw => hQ a w' (h w' hw)
  | .call _ _, _, h => fun w₁ hr c r w₂ hc ha =>
      ⟨(h w₁ hr c r w₂ hc ha).1, wp_mono hQ (h w₁ hr c r w₂ hc ha).2⟩

theorem wp_bind {f : α → Prog S β} {Q : β → World M Tag → Prop} :
    ∀ {p : Prog S α} {w : World M Tag},
      K.wp me p (fun a => K.wp me (f a) Q) w → K.wp me (p.bind f) Q w
  | .ret _, w, h => h w (K.rely_refl w)
  | .call _ _, _, h => fun w₁ hr c r w₂ hc ha =>
      ⟨(h w₁ hr c r w₂ hc ha).1, wp_bind (h w₁ hr c r w₂ hc ha).2⟩

theorem wp_of_inv {J : World M Tag → Prop} {A : (o : S.Op) → S.Res o → Prop} {P : S.Op → Prop}
    {Q₀ : α → Prop} {Q : α → World M Tag → Prop}
    (hrely : ∀ w w', K.rely w w' → J w → J w')
    (hcall : ∀ o w c r w', P o → J w → w.call me o c = some (r, w') → K.assume o w r w' →
      A o r ∧ K.guar o w r w' ∧ J w')
    (hpost : ∀ a w, Q₀ a → J w → Q a w) :
    ∀ {p : Prog S α}, p.All A P Q₀ → ∀ {w}, J w → K.wp me p Q w
  | .ret a, hp, w, hJ => fun w' hr => hpost a w' hp (hrely w w' hr hJ)
  | .call o k, hp, w, hJ => fun w₁ hr c r w₂ hc ha => by
      obtain ⟨hA, hg, hJ₂⟩ := hcall o w₁ c r w₂ hp.1 (hrely w w₁ hr hJ) hc ha
      exact ⟨hg, wp_of_inv hrely hcall hpost (hp.2 r hA) hJ₂⟩

section
variable {E : Type}

variable {x : Fallible S E α} {w : World M Tag}

theorem wp_andThen {f : α → Fallible S E β} {Q : Except E β → World M Tag → Prop}
    (h : K.wp me x (fun r w => match r with
      | .ok a => K.wp me (f a) Q w
      | .error e => ∀ w', K.rely w w' → Q (.error e) w') w) :
    K.wp me (x >>= f : Fallible S E β) Q w := by
  refine wp_bind (wp_mono (fun r w hr => ?_) h)
  cases r with
  | ok a => exact hr
  | error e => exact hr

theorem wp_attempt {Q : Except E (Except E α) → World M Tag → Prop}
    (h : K.wp me x (fun r w => ∀ w', K.rely w w' → Q (.ok r) w') w) :
    K.wp me x.attempt Q w := wp_bind h

theorem wp_detach {Q : Unit → World M Tag → Prop}
    (h : K.wp me x (fun _ w => ∀ w', K.rely w w' → Q () w') w) :
    K.wp me x.detach Q w := wp_bind h

end

end Contract

/-! ## A task alone -/

/-- `Solo A me p w a w'`: with nobody else running, `p` can take `w` to `w'` and
return `a`, each of its calls meeting `A`. -/
inductive Solo (A : (o : S.Op) → World M Tag → S.Res o → World M Tag → Prop) (me : Nat) :
    Prog S α → World M Tag → α → World M Tag → Prop
  | ret (a : α) (w : World M Tag) : Solo A me (.ret a) w a w
  | call {o : S.Op} {k : S.Res o → Prog S α} {w w₁ w' : World M Tag} {c : M.Choice}
      {r : S.Res o} {a : α} : w.call me o c = some (r, w₁) → A o w r w₁ →
      Solo A me (k r) w₁ a w' → Solo A me (.call o k) w a w'

/-- The contract of a task alone: nothing moves between its calls. -/
def Contract.alone (A : (o : S.Op) → World M Tag → S.Res o → World M Tag → Prop) :
    Contract M Tag where
  rely := fun w w' => w' = w
  assume := A
  guar := fun _ _ _ _ => True
  rely_refl := fun _ => rfl
  rely_trans := fun h₁ h₂ => h₂.trans h₁

variable {A : (o : S.Op) → World M Tag → S.Res o → World M Tag → Prop} {me : Nat} {p : Prog S α}
  {w w' : World M Tag} {a : α}

theorem solo_post {Q : α → World M Tag → Prop} (h : Solo A me p w a w')
    (hwp : (Contract.alone A).wp me p Q w) : Q a w' := by
  induction h with
  | ret a w => exact hwp w rfl
  | call hc hA _ ih => exact ih (hwp _ rfl _ _ _ hc hA).2

theorem Solo.bind {f : α → Prog S β} {w₁ : World M Tag} {b : β} (h : Solo A me p w a w₁)
    (hf : Solo A me (f a) w₁ b w') : Solo A me (p.bind f) w b w' := by
  induction h with
  | ret a w => exact hf
  | call hc hA _ ih => exact .call hc hA (ih hf)

theorem Solo.exists_of_all {B : (o : S.Op) → S.Res o → Prop} {P : S.Op → Prop} {Q : α → Prop}
    (hP : ∀ o (w : World M Tag), P o →
      ∃ c r w', w.call me o c = some (r, w') ∧ A o w r w' ∧ B o r) :
    ∀ (p : Prog S α), p.All B P Q → ∀ w, ∃ a w', Solo A me p w a w'
  | .ret a, _, w => ⟨a, w, .ret a w⟩
  | .call o k, hp, w => by
      obtain ⟨c, r, w₁, hc, hA, hB⟩ := hP o w hp.1
      obtain ⟨a, w', hs⟩ := Solo.exists_of_all hP (k r) (hp.2 r hB) w₁
      exact ⟨a, w', .call hc hA hs⟩

/-- Runs a program alone, every call answered as `c` decides and checked. -/
def soloEval (check : (o : S.Op) → World M Tag → S.Res o → World M Tag → Bool) (me : Nat)
    (c : M.Choice) : Prog S α → World M Tag → Option (α × World M Tag)
  | .ret a, w => some (a, w)
  | .call o k, w =>
    match w.call me o c with
    | none => none
    | some (r, w₁) => if check o w r w₁ then soloEval check me c (k r) w₁ else none

theorem Solo.of_eval {check : (o : S.Op) → World M Tag → S.Res o → World M Tag → Bool}
    {c : M.Choice}
    (hcheck : ∀ o w r w', w.call me o c = some (r, w') → check o w r w' = true → A o w r w') :
    ∀ {p : Prog S α} {w w' : World M Tag} {a : α},
      soloEval check me c p w = some (a, w') → Solo A me p w a w'
  | .ret a, w, w', a', h => by
      cases h
      exact .ret a w
  | .call o k, w, w', a, h => by
      unfold soloEval at h
      split at h
      · cases h
      · next r w₁ hc =>
        split at h
        · next hok => exact .call hc (hcheck o w r w₁ hc hok) (of_eval hcheck h)
        · cases h

/-! ## Pools -/

structure Pool (M : Machine S) (Tag : Type) where
  world : World M Tag
  progs : List (Prog S Unit)

namespace Pool

/-- Task `i` makes its next call. -/
def sched (P : Pool M Tag) (i : Nat) (c : M.Choice) : Option (Pool M Tag) :=
  match P.progs[i]? with
  | some (.call o k) =>
    match P.world.call i o c with
    | some (r, w) => some ⟨w, P.progs.set i (k r)⟩
    | none => none
  | _ => none

/-- A new task, numbered by its place. -/
def spawn (P : Pool M Tag) (t : Tag) (p : Prog S Unit) : Pool M Tag :=
  ⟨{ P.world with tags := P.world.tags ++ [t] }, P.progs ++ [p]⟩

/-- Task `i` exists and still has a call to make. -/
def live (P : Pool M Tag) (i : Nat) : Bool :=
  match P.progs[i]? with
  | some p => !p.isDone
  | none => false

theorem sched_eq_some {P P' : Pool M Tag} {i : Nat} {c : M.Choice}
    (h : P.sched i c = some P') :
    ∃ o k r, P.progs[i]? = some (.call o k) ∧ P.world.call i o c = some (r, P'.world) ∧
      P'.progs = P.progs.set i (k r) := by
  unfold sched at h
  split at h
  · next o k heq =>
    split at h
    · next r w hc =>
      simp only [Option.some.injEq] at h
      subst h
      exact ⟨o, k, r, heq, hc, rfl⟩
    · cases h
  · cases h

/-! ### Footprints -/

/-- Every task has a tag and calls only what its tag allows. -/
structure Within (A : (o : S.Op) → S.Res o → Prop) (F : Tag → S.Op → Prop) (P : Pool M Tag) :
    Prop where
  length_eq : P.progs.length = P.world.tags.length
  calls : ∀ (i : Nat) (t : Tag) (p : Prog S Unit), P.world.tags[i]? = some t →
    P.progs[i]? = some p → p.All A (F t) fun _ => True

section
variable {A : (o : S.Op) → S.Res o → Prop} {F : Tag → S.Op → Prop} {P P' : Pool M Tag}

theorem Within.tag_of_prog (hw : P.Within A F) {i : Nat} {p : Prog S Unit}
    (h : P.progs[i]? = some p) : ∃ t, P.world.tags[i]? = some t := by
  have hi : i < P.world.tags.length := by
    rw [← hw.length_eq]
    exact (List.getElem?_eq_some_iff.mp h).1
  exact ⟨_, List.getElem?_eq_getElem hi⟩

theorem Within.next (hw : P.Within A F) {i : Nat} {t : Tag} {o : S.Op}
    {k : S.Res o → Prog S Unit} (ht : P.world.tags[i]? = some t)
    (hp : P.progs[i]? = some (.call o k)) : F t o :=
  (hw.calls i t _ ht hp).1

theorem Within.sched (hA : ∀ me o c s r s', M.call me o c s = some (r, s') → A o r)
    (hw : P.Within A F) {i : Nat} {c : M.Choice} (h : P.sched i c = some P') :
    P'.Within A F := by
  obtain ⟨o, k, r, hp, hc, hset⟩ := sched_eq_some h
  have hcall := World.call_eq_some hc
  refine ⟨by rw [hset, List.length_set, hcall.2.1, hw.length_eq], fun j t p ht hj => ?_⟩
  rw [hcall.2.1] at ht
  rw [hset] at hj
  rcases getElem?_set_cases hj with ⟨rfl, rfl⟩ | ⟨-, hj⟩
  · exact (hw.calls j t _ ht hp).2 r (hA _ _ _ _ _ _ hcall.1)
  · exact hw.calls j t p ht hj

theorem Within.spawn (hw : P.Within A F) {t : Tag} {p : Prog S Unit}
    (hp : p.All A (F t) fun _ => True) : (P.spawn t p).Within A F := by
  refine ⟨by simp [Pool.spawn, hw.length_eq], fun j t' p' ht hj => ?_⟩
  rcases getElem?_snoc_cases hj with hj | ⟨rfl, rfl⟩
  · rcases getElem?_snoc_cases ht with ht | ⟨rfl, -⟩
    · exact hw.calls j t' p' ht hj
    · have := (List.getElem?_eq_some_iff.mp hj).1
      rw [hw.length_eq] at this
      exact absurd this (Nat.lt_irrefl _)
  · rcases getElem?_snoc_cases ht with ht | ⟨-, rfl⟩
    · have := (List.getElem?_eq_some_iff.mp ht).1
      rw [hw.length_eq] at this
      exact absurd this (Nat.lt_irrefl _)
    · exact hp

theorem Within.env (hw : P.Within A F) {w : World M Tag} (htags : w.tags = P.world.tags) :
    Within A F ⟨w, P.progs⟩ :=
  ⟨by rw [htags]; exact hw.length_eq, fun j t p ht hj => hw.calls j t p (htags ▸ ht) hj⟩

end

/-- Task `i` may still make a call that satisfies `R`. -/
def MayAt (A : (o : S.Op) → S.Res o → Prop) (R : S.Op → Prop) (P : Pool M Tag) (i : Nat) :
    Prop :=
  ∃ p : Prog S Unit, P.progs[i]? = some p ∧ p.May A R

section
variable {A : (o : S.Op) → S.Res o → Prop} {R : S.Op → Prop} {P P' : Pool M Tag}

theorem MayAt.of_sched (hA : ∀ me o c s r s', M.call me o c s = some (r, s') → A o r) {i j : Nat}
    {c : M.Choice} (h : P.sched i c = some P') (hj : P'.MayAt A R j) : P.MayAt A R j := by
  obtain ⟨o, k, r, hp, hc, hset⟩ := sched_eq_some h
  obtain ⟨p, hj, hmay⟩ := hj
  rw [hset] at hj
  rcases getElem?_set_cases hj with ⟨rfl, rfl⟩ | ⟨-, hj⟩
  · exact ⟨_, hp, hmay.of_cont (hA _ _ _ _ _ _ (World.call_eq_some hc).1)⟩
  · exact ⟨p, hj, hmay⟩

theorem MayAt.of_spawn {t : Tag} {p : Prog S Unit} {j : Nat} (hj : (P.spawn t p).MayAt A R j) :
    P.MayAt A R j ∨ (j = P.progs.length ∧ p.May A R) := by
  obtain ⟨q, hj, hmay⟩ := hj
  rcases getElem?_snoc_cases hj with hj | ⟨rfl, rfl⟩
  · exact .inl ⟨q, hj, hmay⟩
  · exact .inr ⟨rfl, hmay⟩

end

/-! ### Order of calls -/

/-- Every task makes its `G` call before its first `P` call. -/
def Ordered (A : (o : S.Op) → S.Res o → Prop) (G : Tag → S.Op → Prop) (R : S.Op → Prop)
    (P : Pool M Tag) : Prop :=
  ∀ (i : Nat) (t : Tag) (p : Prog S Unit), P.world.tags[i]? = some t → P.progs[i]? = some p →
    p.Before A (G t) R ∨ ∃ x ∈ P.world.log, x.task = i ∧ G t x.op

section
variable {A : (o : S.Op) → S.Res o → Prop} {G : Tag → S.Op → Prop} {R : S.Op → Prop}
  {P P' : Pool M Tag}

theorem Ordered.done (ho : P.Ordered A G R) {i : Nat} {t : Tag} {o : S.Op}
    {k : S.Res o → Prog S Unit} (ht : P.world.tags[i]? = some t)
    (hp : P.progs[i]? = some (.call o k)) (hR : R o) (hG : ¬ G t o) :
    ∃ x ∈ P.world.log, x.task = i ∧ G t x.op := by
  rcases ho i t _ ht hp with (hg | ⟨hno, -⟩) | hlog
  · exact absurd hg hG
  · exact absurd hR hno
  · exact hlog

theorem Ordered.sched (hA : ∀ me o c s r s', M.call me o c s = some (r, s') → A o r)
    (ho : P.Ordered A G R) {i : Nat} {c : M.Choice} (h : P.sched i c = some P') :
    P'.Ordered A G R := by
  obtain ⟨o, k, r, hp, hc, hset⟩ := sched_eq_some h
  obtain ⟨hcall, htags, hlog⟩ := World.call_eq_some hc
  intro j t p ht hj
  rw [htags] at ht
  rw [hset] at hj
  rw [hlog]
  rcases getElem?_set_cases hj with ⟨rfl, rfl⟩ | ⟨-, hj⟩
  · rcases ho j t _ ht hp with (hg | ⟨-, hrest⟩) | ⟨x, hx, hdone⟩
    · exact .inr ⟨_, List.mem_cons_self, rfl, hg⟩
    · exact .inl (hrest r (hA _ _ _ _ _ _ hcall))
    · exact .inr ⟨x, List.mem_cons_of_mem _ hx, hdone⟩
  · exact (ho j t p ht hj).imp_right fun ⟨x, hx, hdone⟩ => ⟨x, List.mem_cons_of_mem _ hx, hdone⟩

theorem Ordered.spawn (hw : P.progs.length = P.world.tags.length) (ho : P.Ordered A G R) {t : Tag}
    {p : Prog S Unit} (hp : p.Before A (G t) R) : (P.spawn t p).Ordered A G R := by
  intro j t' p' ht hj
  rcases getElem?_snoc_cases hj with hj | ⟨rfl, rfl⟩
  · rcases getElem?_snoc_cases ht with ht | ⟨rfl, -⟩
    · exact ho j t' p' ht hj
    · have := (List.getElem?_eq_some_iff.mp hj).1
      omega
  · rcases getElem?_snoc_cases ht with ht | ⟨-, rfl⟩
    · have := (List.getElem?_eq_some_iff.mp ht).1
      omega
    · exact .inl hp

theorem Ordered.env (ho : P.Ordered A G R) {w : World M Tag} (htags : w.tags = P.world.tags)
    (hlog : w.log = P.world.log) : Ordered A G R ⟨w, P.progs⟩ := by
  intro j t p ht hj
  have ht' : P.world.tags[j]? = some t := htags ▸ ht
  exact hlog ▸ ho j t p ht' hj

end

/-! ### Contracts -/

/-- Every task has a tag and meets the contract its tag gives it. -/
structure Sound (K : Tag → Nat → Contract M Tag) (Q : Tag → Nat → World M Tag → Prop)
    (P : Pool M Tag) : Prop where
  length_eq : P.progs.length = P.world.tags.length
  meets : ∀ i t p, P.world.tags[i]? = some t → P.progs[i]? = some p →
    (K t i).wp i p (fun _ => Q t i) P.world

variable {K : Tag → Nat → Contract M Tag} {Q : Tag → Nat → World M Tag → Prop}

variable {P P' : Pool M Tag} {i : Nat} {p : Prog S Unit} {c : M.Choice}

theorem Sound.tag_of_prog (hs : P.Sound K Q) (h : P.progs[i]? = some p) :
    ∃ t, P.world.tags[i]? = some t := by
  have hi : i < P.world.tags.length := by
    rw [← hs.length_eq]
    exact (List.getElem?_eq_some_iff.mp h).1
  exact ⟨_, List.getElem?_eq_getElem hi⟩

theorem sched_guar (hs : P.Sound K Q) (h : P.sched i c = some P') :
    ∃ t o k r, P.world.tags[i]? = some t ∧ P.progs[i]? = some (.call o k) ∧
      P.world.call i o c = some (r, P'.world) ∧ P'.progs = P.progs.set i (k r) ∧
      ((K t i).assume o P.world r P'.world →
        (K t i).guar o P.world r P'.world ∧
        (K t i).wp i (k r) (fun _ => Q t i) P'.world) := by
  obtain ⟨o, k, r, hp, hc, hset⟩ := sched_eq_some h
  obtain ⟨t, ht⟩ := hs.tag_of_prog hp
  refine ⟨t, o, k, r, ht, hp, hc, hset, fun ha => ?_⟩
  exact hs.meets i t _ ht hp P.world ((K t i).rely_refl _) c r P'.world hc ha

/-- Another task's contract survives a step that keeps its rely, or after which its code is
still right. -/
def Undisturbed (K : Tag → Nat → Contract M Tag) (Q : Tag → Nat → World M Tag → Prop)
    (P : Pool M Tag) (w' : World M Tag) (j : Nat) (t : Tag) : Prop :=
  (K t j).rely P.world w' ∨
    ∀ p, P.progs[j]? = some p → (K t j).wp j p (fun _ => Q t j) w'

variable {t : Tag} {w : World M Tag}

theorem Undisturbed.meets {w' : World M Tag} {j : Nat} (hs : P.Sound K Q)
    (h : Undisturbed K Q P w' j t) (ht : P.world.tags[j]? = some t) (hp : P.progs[j]? = some p) :
    (K t j).wp j p (fun _ => Q t j) w' := by
  rcases h with h | h
  · exact Contract.wp_stable (hs.meets j t p ht hp) h
  · exact h p hp

theorem sched_sound (hs : P.Sound K Q) (h : P.sched i c = some P')
    (hassume : ∀ t o k r, P.world.tags[i]? = some t → P.progs[i]? = some (.call o k) →
      P.world.call i o c = some (r, P'.world) → (K t i).assume o P.world r P'.world)
    (hothers : ∀ j t, j ≠ i → P.world.tags[j]? = some t → Undisturbed K Q P P'.world j t) :
    P'.Sound K Q := by
  obtain ⟨t, o, k, r, ht, hp, hc, hset, hmeet⟩ := sched_guar hs h
  have htags : P'.world.tags = P.world.tags := (World.call_eq_some hc).2.1
  refine ⟨by rw [hset, List.length_set, htags, hs.length_eq], fun j t' p' hj hp' => ?_⟩
  rw [htags] at hj
  rw [hset] at hp'
  rcases getElem?_set_cases hp' with ⟨rfl, rfl⟩ | ⟨hji, hp'⟩
  · obtain rfl : t' = t := by rw [ht] at hj; exact (Option.some.inj hj).symm
    exact (hmeet (hassume t' o k r ht hp hc)).2
  · exact (hothers j t' hji hj).meets hs hj hp'

theorem env_sound (hs : P.Sound K Q) (htags : w.tags = P.world.tags)
    (hothers : ∀ j t, P.world.tags[j]? = some t → Undisturbed K Q P w j t) :
    Sound K Q ⟨w, P.progs⟩ := by
  refine ⟨by rw [htags]; exact hs.length_eq, fun j t p hj hp => ?_⟩
  rw [htags] at hj
  exact (hothers j t hj).meets hs hj hp

theorem spawn_sound (hs : P.Sound K Q) (htags : w.tags = P.world.tags ++ [t])
    (hnew : (K t P.progs.length).wp P.progs.length p (fun _ => Q t P.progs.length) w)
    (hothers : ∀ j t', P.world.tags[j]? = some t' → Undisturbed K Q P w j t') :
    Sound K Q ⟨w, P.progs ++ [p]⟩ := by
  refine ⟨by simp [htags, hs.length_eq], fun j t' p' hj hp' => ?_⟩
  simp only [htags] at hj
  rcases getElem?_snoc_cases hp' with hp' | ⟨rfl, rfl⟩
  · rcases getElem?_snoc_cases hj with hj | ⟨rfl, -⟩
    · exact (hothers j t' hj).meets hs hj hp'
    · have := (List.getElem?_eq_some_iff.mp hp').1
      rw [hs.length_eq] at this
      exact absurd this (Nat.lt_irrefl _)
  · rcases getElem?_snoc_cases hj with hj | ⟨-, rfl⟩
    · have := (List.getElem?_eq_some_iff.mp hj).1
      rw [hs.length_eq] at this
      exact absurd this (Nat.lt_irrefl _)
    · exact hnew

end Pool

end Async
