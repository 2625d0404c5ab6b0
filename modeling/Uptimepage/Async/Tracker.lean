import Uptimepage.Async.Pool

/-!
# Following one task's calls

A `Tracker` reads off a task's own calls what the task is in the middle of: `next` is where
an answered call takes it, `allows` what it may call there.  `Tracker.Follows` says that a
program calls only what is allowed and ends where `Q` allows; it looks at no other task, so
it is proved of the code alone.
-/

namespace Async

variable {S : Sig} {D α β : Type}

structure Tracker (S : Sig) (D : Type) where
  next : D → (o : S.Op) → S.Res o → D
  allows : D → S.Op → Prop

namespace Tracker

variable (T : Tracker S D)

/-- Where the calls of task `me` have taken it from `d`.  The log is newest first. -/
def after (me : Nat) (d : D) : List (Entry S) → D
  | [] => d
  | x :: log => if x.task = me then T.next (after me d log) x.op x.res else after me d log

/-- From `d` on the program calls only what is allowed, and ends with `Q`, as long as the
answers satisfy `A`. -/
def Follows (A : (o : S.Op) → S.Res o → Prop) : Prog S α → (α → D → Prop) → D → Prop
  | .ret a, Q, d => Q a d
  | .call o k, Q, d => T.allows d o ∧ ∀ r, A o r → Follows A (k r) Q (T.next d o r)

variable {T} {A : (o : S.Op) → S.Res o → Prop}

variable {me : Nat} {d : D} {o : S.Op} {log : List (Entry S)}

@[simp] theorem after_cons_self {r : S.Res o} :
    T.after me d (⟨me, o, r⟩ :: log) = T.next (T.after me d log) o r := by
  simp [after]

theorem after_cons_ne {i : Nat} (h : i ≠ me) {r : S.Res o} :
    T.after me d (⟨i, o, r⟩ :: log) = T.after me d log := by
  simp [after, h]

theorem after_of_none (h : ∀ x ∈ log, x.task ≠ me) : T.after me d log = d := by
  induction log with
  | nil => rfl
  | cons x log ih =>
    have hx : x.task ≠ me := h x List.mem_cons_self
    have hrest := ih fun y hy => h y (List.mem_cons_of_mem _ hy)
    simp [after, hx, hrest]

theorem Follows.mono {Q Q' : α → D → Prop} (hQ : ∀ a d, Q a d → Q' a d) :
    ∀ {p : Prog S α} {d : D}, T.Follows A p Q d → T.Follows A p Q' d
  | .ret a, d, h => hQ a d h
  | .call _ _, _, h => ⟨h.1, fun r hr => Follows.mono hQ (h.2 r hr)⟩

theorem Follows.bind {f : α → Prog S β} {Q : β → D → Prop} :
    ∀ {p : Prog S α} {d : D}, T.Follows A p (fun a d => T.Follows A (f a) Q d) d →
      T.Follows A (p.bind f) Q d
  | .ret _, _, h => h
  | .call _ _, _, h => ⟨h.1, fun r hr => Follows.bind (h.2 r hr)⟩

theorem Follows.andThen {E : Type} {x : Fallible S E α} {f : α → Fallible S E β}
    {Q : Except E β → D → Prop} (h : T.Follows A x (fun r d => match r with
      | .ok a => T.Follows A (f a) Q d
      | .error e => Q (.error e) d) d) : T.Follows A (x >>= f : Fallible S E β) Q d := by
  refine Follows.bind (Follows.mono (fun r d hr => ?_) h)
  cases r with
  | ok a => exact hr
  | error e => exact hr

theorem follows_of_all {P : S.Op → Prop} {Q : α → Prop}
    (hP : ∀ o, P o → T.allows d o ∧ ∀ r, T.next d o r = d) :
    ∀ {p : Prog S α}, p.All A P Q → T.Follows A p (fun a d' => Q a ∧ d' = d) d
  | .ret _, hp => ⟨hp, rfl⟩
  | .call o k, hp => by
    obtain ⟨hallow, hstay⟩ := hP o hp.1
    refine ⟨hallow, fun r hr => ?_⟩
    rw [hstay r]
    exact follows_of_all hP (hp.2 r hr)

end Tracker

/-! ## Pools -/

namespace Pool

variable {M : Machine S} {Tag : Type} {T : Tracker S D} {A : (o : S.Op) → S.Res o → Prop}
  {start : Tag → D} {Q : D → Prop} {P P' : Pool M Tag}

/-- Every task follows the tracker from where its tag starts it. -/
structure Follows (T : Tracker S D) (A : (o : S.Op) → S.Res o → Prop) (start : Tag → D)
    (Q : D → Prop) (P : Pool M Tag) : Prop where
  length_eq : P.progs.length = P.world.tags.length
  tasks : ∀ x ∈ P.world.log, x.task < P.progs.length
  follows : ∀ i t p, P.world.tags[i]? = some t → P.progs[i]? = some p →
    T.Follows A p (fun _ => Q) (T.after i (start t) P.world.log)

/-- Where the running task `i` is. -/
def stage (T : Tracker S D) (start : Tag → D) (P : Pool M Tag) (i : Nat) : Option D :=
  if P.live i then (P.world.tags[i]?).map fun t => T.after i (start t) P.world.log else none

variable {i : Nat} {d : D}

theorem stage_eq_some :
    P.stage T start i = some d ↔
      P.live i = true ∧ ∃ t, P.world.tags[i]? = some t ∧ T.after i (start t) P.world.log = d := by
  unfold stage
  by_cases hl : P.live i = true
  · simp [hl]
  · simp [hl]

theorem lt_of_live (h : P.live i = true) : i < P.progs.length := by
  by_contra hi
  simp [live, List.getElem?_eq_none (Nat.le_of_not_lt hi)] at h

/-- One call of task `i`, from where it is. -/
structure Moved (T : Tracker S D) (start : Tag → D) (Q : D → Prop) (P P' : Pool M Tag) (i : Nat)
    (c : M.Choice) (d : D) (o : S.Op) (r : S.Res o) : Prop where
  stage : P.stage T start i = some d
  next : ∃ k, P.progs[i]? = some (.call o k)
  call : M.call i o c P.world.store = some (r, P'.world.store)
  log : P'.world.log = ⟨i, o, r⟩ :: P.world.log
  allows : T.allows d o
  others : ∀ j, j ≠ i → P'.stage T start j = P.stage T start j
  self : P'.stage T start i = some (T.next d o r) ∨
    (P'.stage T start i = none ∧ Q (T.next d o r))

theorem Follows.of_sched (hA : ∀ me o c s r s', M.call me o c s = some (r, s') → A o r)
    (hP : P.Follows T A start Q) {c : M.Choice} (h : P.sched i c = some P') :
    P'.Follows T A start Q ∧ ∃ d o r, Moved T start Q P P' i c d o r := by
  obtain ⟨o, k, r, hp, hc, hset⟩ := sched_eq_some h
  obtain ⟨hcall, htags, hlog⟩ := World.call_eq_some hc
  have hi : i < P.progs.length := (List.getElem?_eq_some_iff.mp hp).1
  obtain ⟨t, ht⟩ : ∃ t, P.world.tags[i]? = some t :=
    ⟨_, List.getElem?_eq_getElem (hP.length_eq ▸ hi)⟩
  obtain ⟨hallow, hrest⟩ := hP.follows i t _ ht hp
  have hnext := hrest r (hA _ _ _ _ _ _ hcall)
  have hlive : P.live i = true := by simp [live, hp, Prog.isDone]
  constructor
  · refine ⟨by rw [hset, List.length_set, htags, hP.length_eq], ?_, ?_⟩
    · intro x hx
      rw [hset, List.length_set]
      rcases List.mem_cons.mp (hlog ▸ hx) with rfl | hx
      · exact hi
      · exact hP.tasks x hx
    · intro j t' p' hj hp'
      rw [htags] at hj
      rw [hset] at hp'
      rw [hlog]
      rcases getElem?_set_cases hp' with ⟨rfl, rfl⟩ | ⟨hji, hp'⟩
      · obtain rfl : t' = t := by
          rw [ht] at hj
          exact (Option.some.inj hj).symm
        rw [Tracker.after_cons_self]
        exact hnext
      · rw [Tracker.after_cons_ne (Ne.symm hji)]
        exact hP.follows j t' p' hj hp'
  · refine ⟨T.after i (start t) P.world.log, o, r, ?_, ⟨k, hp⟩, hcall, hlog, hallow, ?_, ?_⟩
    · exact stage_eq_some.2 ⟨hlive, t, ht, rfl⟩
    · intro j hji
      have hlive' : P'.live j = P.live j := by
        simp [live, hset, List.getElem?_set_ne (Ne.symm hji)]
      unfold stage
      rw [hlive', htags, hlog]
      simp only [Tracker.after_cons_ne (Ne.symm hji)]
    · have hi' : P'.progs[i]? = some (k r) := by rw [hset, List.getElem?_set_self hi]
      cases hk : k r with
      | ret a =>
        rw [hk] at hnext
        refine .inr ⟨?_, hnext⟩
        simp [stage, live, hi', hk, Prog.isDone]
      | call o' k' =>
        refine .inl (stage_eq_some.2 ⟨?_, t, htags ▸ ht, ?_⟩)
        · simp [live, hi', hk, Prog.isDone]
        · rw [hlog, Tracker.after_cons_self]

variable {w : World M Tag} {t : Tag} {p : Prog S Unit}

theorem Follows.of_spawn (hP : P.Follows T A start Q) (htags : w.tags = P.world.tags ++ [t])
    (hlog : w.log = P.world.log) (hp : T.Follows A p (fun _ => Q) (start t)) :
    Follows T A start Q ⟨w, P.progs ++ [p]⟩ := by
  refine ⟨by simp [htags, hP.length_eq], fun x hx => ?_, fun j t' p' hj hp' => ?_⟩
  · rw [List.length_append]
    exact Nat.lt_add_right _ (hP.tasks x (hlog ▸ hx))
  · simp only [htags] at hj
    simp only [hlog]
    rcases getElem?_snoc_cases hp' with hp' | ⟨rfl, rfl⟩
    · rcases getElem?_snoc_cases hj with hj | ⟨rfl, -⟩
      · exact hP.follows j t' p' hj hp'
      · have := (List.getElem?_eq_some_iff.mp hp').1
        rw [hP.length_eq] at this
        exact absurd this (Nat.lt_irrefl _)
    · rcases getElem?_snoc_cases hj with hj | ⟨-, rfl⟩
      · have := (List.getElem?_eq_some_iff.mp hj).1
        rw [hP.length_eq] at this
        exact absurd this (Nat.lt_irrefl _)
      · rw [Tracker.after_of_none fun x hx => Nat.ne_of_lt (hP.tasks x hx)]
        exact hp

theorem Follows.of_env (hP : P.Follows T A start Q) (htags : w.tags = P.world.tags)
    (hlog : w.log = P.world.log) :
    Follows T A start Q ⟨w, P.progs⟩ :=
  ⟨by rw [htags]; exact hP.length_eq, fun x hx => hP.tasks x (hlog ▸ hx),
    fun i t p ht hp => by
      simp only [hlog]
      exact hP.follows i t p (htags ▸ ht) hp⟩

theorem stage_spawn (hP : P.Follows T A start Q) (htags : w.tags = P.world.tags ++ [t])
    (hlog : w.log = P.world.log) (h : stage T start ⟨w, P.progs ++ [p]⟩ i = some d) :
    P.stage T start i = some d ∨ (i = P.progs.length ∧ d = start t) := by
  obtain ⟨hlive, t', ht', hafter⟩ := stage_eq_some.1 h
  simp only [htags] at ht'
  simp only [hlog] at hafter
  rcases getElem?_snoc_cases ht' with ht' | ⟨rfl, rfl⟩
  · have hi : i < P.progs.length := by
      rw [hP.length_eq]
      exact (List.getElem?_eq_some_iff.mp ht').1
    refine .inl (stage_eq_some.2 ⟨?_, t', ht', hafter⟩)
    simpa only [live, List.getElem?_append_left hi] using hlive
  · rw [Tracker.after_of_none fun x hx => ?_] at hafter
    · exact .inr ⟨hP.length_eq.symm, hafter.symm⟩
    · rw [← hP.length_eq]
      exact Nat.ne_of_lt (hP.tasks x hx)

theorem stage_of_spawn (htags : w.tags = P.world.tags ++ [t]) (hlog : w.log = P.world.log)
    (h : P.stage T start i = some d) : stage T start ⟨w, P.progs ++ [p]⟩ i = some d := by
  obtain ⟨hlive, t', ht', hafter⟩ := stage_eq_some.1 h
  refine stage_eq_some.2 ⟨?_, t', ?_, by simpa only [hlog] using hafter⟩
  · simpa only [live, List.getElem?_append_left (lt_of_live hlive)] using hlive
  · simpa only [htags, List.getElem?_append_left (List.getElem?_eq_some_iff.mp ht').1] using ht'

end Pool

end Async
