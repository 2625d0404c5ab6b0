import Uptimepage.Escalation.Moves

/-!
# Contracts of the engine's tasks

The rules of `Contract.wp` at the constructs a job is written with, and
`contracts_step`, the one lemma that carries a family of contracts over a move of the
engine: the new task meets its own, the one that moved may assume what its contract
assumes, and the others are undisturbed.
-/

namespace Uptimepage

open Async Job

section
variable {lower : String → String} {K : Contract (machine lower) Tag} {me : Nat}
  {α β : Type} {w : World (machine lower) Tag}

variable {c : Choice} {w' : World (machine lower) Tag} {o : StoreOp}

theorem world_call {o : Op} {r : o.Res} (h : w.call me o c = some (r, w')) :
    Sys.call lower me o c w.store = some (r, w'.store) ∧ w'.tags = w.tags ∧
      w'.log = ⟨me, o, r⟩ :: w.log :=
  World.call_eq_some h

theorem store_ok {a : o.Ret} (h : w.call me (.store o) c = some (.ok a, w')) :
    w.store.db.exec lower (w.store.tick c) o = (.ok a, w'.store.db) ∧ o.Honest a ∧
      w'.store = { w.store with clock := w.store.tick c, db := w'.store.db } := by
  obtain ⟨hcall, -, -⟩ := world_call h
  refine ⟨?_, Sys.call_honest hcall, ?_⟩
  · rcases Sys.call_store hcall with ⟨-, hr, -⟩ | ⟨-, hr, hs⟩
    · cases hr
    · rw [hs, hr]
  · rcases Sys.call_store hcall with ⟨-, hr, -⟩ | ⟨-, -, hs⟩
    · cases hr
    · rw [hs]

/-- `Contract.wp` at a job: `Q` is asked of the value it returns; an error ends it. -/
def wpJob (K : Contract (machine lower) Tag) (me : Nat) (x : Job α)
    (Q : α → World (machine lower) Tag → Prop) (w : World (machine lower) Tag) : Prop :=
  K.wp me x (fun r w => ∀ a, r = .ok a → Q a w) w

variable {Q : α → World (machine lower) Tag → Prop} {Q' : β → World (machine lower) Tag → Prop}

variable {a : α} {Q₁ : α → World (machine lower) Tag → Prop} {x : Job α} {f : α → Job β}

theorem wpJob_pure (h : ∀ w', K.rely w w' → Q a w') : wpJob K me (pure a : Job α) Q w := by
  intro w' hr b hb
  cases hb
  exact h w' hr

theorem wpJob_mono (h : wpJob K me x Q w) (hQ : ∀ a w, Q a w → Q₁ a w) : wpJob K me x Q₁ w :=
  Contract.wp_mono (fun _ _ h a ha => hQ a _ (h a ha)) h

theorem wpJob_bind (h : wpJob K me x (fun a w => wpJob K me (f a) Q' w) w) :
    wpJob K me (x >>= f) Q' w := by
  refine Contract.wp_andThen (Contract.wp_mono (fun r w hr => ?_) h)
  cases r with
  | ok a => exact hr a rfl
  | error e => exact fun _ _ a ha => by cases ha

theorem wpJob_store {f : o.Ret → Job β}
    (h : ∀ w₁ c r w₂, K.rely w w₁ → w₁.call me (.store o) c = some (r, w₂) →
      K.assume (.store o) w₁ r w₂ →
      K.guar (.store o) w₁ r w₂ ∧ ∀ a, r = .ok a → wpJob K me (f a) Q' w₂) :
    wpJob K me (store o >>= f) Q' w := by
  intro w₁ hr c r w₂ hc ha
  obtain ⟨hg, hf⟩ := h w₁ c r w₂ hr hc ha
  refine ⟨hg, ?_⟩
  cases r with
  | ok a => exact hf a rfl
  | error e => exact fun _ _ a ha => by cases ha

/-- `Contract.wp` at a job that has to end in a value. -/
def wpOk (K : Contract (machine lower) Tag) (me : Nat) (x : Job α)
    (Q : α → World (machine lower) Tag → Prop) (w : World (machine lower) Tag) : Prop :=
  K.wp me x (fun r w => ∃ a, r = .ok a ∧ Q a w) w

theorem wpOk_pure (h : ∀ w', K.rely w w' → Q a w') : wpOk K me (pure a : Job α) Q w :=
  fun w' hr => ⟨a, rfl, h w' hr⟩

theorem wpOk_mono (h : wpOk K me x Q w) (hQ : ∀ a w, Q a w → Q₁ a w) : wpOk K me x Q₁ w :=
  Contract.wp_mono (fun _ w ⟨a, ha, h⟩ => ⟨a, ha, hQ a w h⟩) h

theorem wpOk_bind (h : wpOk K me x (fun a w => wpOk K me (f a) Q' w) w) :
    wpOk K me (x >>= f) Q' w := by
  refine Contract.wp_andThen (Contract.wp_mono ?_ h)
  rintro r w ⟨a, rfl, h⟩
  exact h

theorem wpOk_attempt {Q : Except StoreError α → World (machine lower) Tag → Prop}
    (h : wpOk K me x (fun a w => ∀ w', K.rely w w' → Q (.ok a) w') w) :
    wpOk K me x.attempt Q w := by
  refine Contract.wp_attempt (Contract.wp_mono ?_ h)
  rintro r w₁ ⟨a, rfl, h⟩ w₂ hr
  exact ⟨_, rfl, h w₂ hr⟩

theorem lock_taken {sh : Nat} {r : Op.Res (.lock sh)} (h : w.call me (.lock sh) c = some (r, w')) :
    w.store.locks sh = none ∧ w'.store.locks sh = some me := by
  obtain ⟨hcall, -, -⟩ := world_call h
  simp only [Sys.call] at hcall
  split at hcall
  · cases hcall
  · next hfree =>
    obtain ⟨-, hs⟩ := Prod.mk.inj (Option.some.inj hcall)
    rw [← hs]
    exact ⟨hfree, by simp⟩

theorem wpJob_locked {k : Uuid} (hl : ∀ w₁ w₂, K.guar (.lock (pageLock k)) w₁ () w₂)
    (hu : ∀ w₁ w₂, K.guar (.unlock (pageLock k)) w₁ () w₂)
    (hx : ∀ w₂, w₂.store.locks (pageLock k) = some me → wpJob K me x (fun _ _ => True) w₂) :
    wpJob K me (locked k x) (fun _ _ => True) w := by
  intro w₁ hr c r w₂ hc ha
  refine ⟨hl w₁ w₂,
    Contract.wp_bind (Contract.wp_mono (fun r w₃ _ => ?_) (hx w₂ (lock_taken hc).2))⟩
  intro w₄ hr' c' r' w₅ hc' ha'
  exact ⟨hu w₄ w₅, fun _ _ _ _ => trivial⟩

variable {P : Op → Prop} {Q₀ : α → Prop}

theorem wp_of_all {p : Prog calls α} (hp : p.All Op.Honest P Q₀)
    (hg : ∀ o w₁ r w₂, P o → K.guar o w₁ r w₂) :
    K.wp me p (fun _ _ => True) w :=
  Contract.wp_of_inv (J := fun _ => True) (fun _ _ _ _ => trivial)
    (fun o w₁ _ r w₂ ho _ hc _ =>
      ⟨Sys.call_honest (World.call_eq_some hc).1, hg o w₁ r w₂ ho, trivial⟩)
    (fun _ _ _ _ => trivial) hp trivial

theorem wpJob_of_all (hx : x.All Op.Honest P Q₀) (hg : ∀ o w₁ r w₂, P o → K.guar o w₁ r w₂) :
    wpJob K me x (fun _ _ => True) w :=
  Contract.wp_mono (fun _ _ _ _ _ => trivial) (wp_of_all hx hg)

theorem wpJob_of_inv {J : World (machine lower) Tag → Prop} {R : α → Prop}
    (hrely : ∀ w w', K.rely w w' → J w → J w')
    (hcall : ∀ o w c r w', P o → J w → w.call me o c = some (r, w') → K.assume o w r w' →
      K.guar o w r w' ∧ J w') (hx : x.All Op.Honest P R) (hJ : J w) :
    wpJob K me x (fun a w => R a ∧ J w) w := by
  refine Contract.wp_of_inv hrely (fun o w₁ c r w₂ ho hJ₁ hc ha => ?_) ?_ hx hJ
  · exact ⟨Sys.call_honest (World.call_eq_some hc).1, hcall o w₁ c r w₂ ho hJ₁ hc ha⟩
  · intro r w₁ hr hJ₁ a ha
    subst ha
    exact ⟨hr, hJ₁⟩

theorem wpJob_detach (h : wpJob K me x (fun _ _ => True) w) :
    K.wp me x.detach (fun _ _ => True) w :=
  Contract.wp_detach (Contract.wp_mono (fun _ _ _ _ _ => trivial) h)

/-- Keeping an assertion, whichever way the code ends, is a logic of quiet code. -/
def keepsQuiet {org : OrgId} (K : Contract (machine lower) Tag) (me : Nat)
    (J : World (machine lower) Tag → Prop) (hrely : ∀ w w', K.rely w w' → J w → J w')
    (hquiet : ∀ o w c r w', QuietCall org o → J w → w.call me o c = some (r, w') →
      K.assume o w r w' → K.guar o w r w' ∧ J w') :
    QuietLogic org where
  Holds := fun Q x => ∀ w, J w → K.wp me x (fun r w => Fallible.okSat Q r ∧ J w) w
  pure := fun h w hJ w' hr => ⟨h, hrely w w' hr hJ⟩
  bind := fun {_ _ Q Q' x f} hx hf w hJ => by
    refine Contract.wp_andThen (Contract.wp_mono (fun r w hr => ?_) (hx w hJ))
    cases r with
    | ok a => exact hf a hr.1 w hr.2
    | error e => exact fun w' hr' => ⟨trivial, hrely w w' hr' hr.2⟩
  attempt := fun {_ Q x} hx w hJ =>
    Contract.wp_attempt (Contract.wp_mono
      (fun _ w hr w' hr' => ⟨hr.1, hrely w w' hr' hr.2⟩) (hx w hJ))
  weaken := fun {_ Q Q' x} hx hQ w hJ =>
    Contract.wp_mono (fun r _ hr => ⟨by
      cases r with
      | ok a => exact hQ a hr.1
      | error e => trivial, hr.2⟩) (hx w hJ)
  store := fun {o} ho w hJ w₁ hr c r w₂ hc ha => by
    obtain ⟨hg, hJ₂⟩ := hquiet _ w₁ c r w₂ ho (hrely w w₁ hr hJ) hc ha
    exact ⟨hg, fun w' hr' => ⟨Sys.call_honest (world_call hc).1, hrely w₂ w' hr' hJ₂⟩⟩
  await := fun {o} ho w hJ w₁ hr c r w₂ hc ha => by
    obtain ⟨hg, hJ₂⟩ := hquiet _ w₁ c r w₂ ho (hrely w w₁ hr hJ) hc ha
    exact ⟨hg, fun w' hr' => ⟨trivial, hrely w₂ w' hr' hJ₂⟩⟩

/-- So it is of paging code. -/
def keeps {org : OrgId} {k : Uuid} (K : Contract (machine lower) Tag) (me : Nat)
    (J : World (machine lower) Tag → Prop) (hrely : ∀ w w', K.rely w w' → J w → J w')
    (hrest : ∀ o w c r w', RestCall org k o ∨ o = .lock (pageLock k) ∨ o = .unlock (pageLock k) →
      J w → w.call me o c = some (r, w') → K.assume o w r w' → K.guar o w r w' ∧ J w') :
    PageLogic org k where
  toQuietLogic := keepsQuiet K me J hrely fun o w c r w' ho => hrest o w c r w' (.inl (.quiet ho))
  rest := fun {o} ho w hJ w₁ hr c r w₂ hc ha => by
    obtain ⟨hg, hJ₂⟩ := hrest _ w₁ c r w₂ (.inl ho) (hrely w w₁ hr hJ) hc ha
    exact ⟨hg, fun w' hr' => ⟨Sys.call_honest (world_call hc).1, hrely w₂ w' hr' hJ₂⟩⟩
  locked := fun {_ Q x} hx w hJ w₁ hr c r w₂ hc ha => by
    obtain ⟨hg, hJ₂⟩ := hrest _ w₁ c r w₂ (.inr (.inl rfl)) (hrely w w₁ hr hJ) hc ha
    refine ⟨hg, Contract.wp_bind (Contract.wp_mono (fun r₃ w₃ h₃ => ?_) (hx w₂ hJ₂))⟩
    intro w₄ hr₄ c₄ r₄ w₅ hc₄ ha₄
    obtain ⟨hg₄, hJ₅⟩ := hrest _ w₄ c₄ r₄ w₅ (.inr (.inr rfl)) (hrely w₃ w₄ hr₄ h₃.2) hc₄ ha₄
    exact ⟨hg₄, fun w' hr' => ⟨h₃.1, hrely w₅ w' hr' hJ₅⟩⟩

/-- Keeping an assertion, and ending in a value, where no call of the code fails. -/
def surely {org : OrgId} (K : Contract (machine lower) Tag) (me : Nat)
    (J : World (machine lower) Tag → Prop) (hrely : ∀ w w', K.rely w w' → J w → J w')
    (hquiet : ∀ o w c r w', QuietCall org o → J w → w.call me o c = some (r, w') →
      K.assume o w r w' → K.guar o w r w' ∧ J w')
    (hok : ∀ (o : StoreOp) w c (r : Except StoreError o.Ret) w', QuietCall org (.store o) →
      w.call me (.store o) c = some (r, w') → K.assume (.store o) w r w' → ∃ a, r = .ok a) :
    QuietLogic org where
  Holds := fun Q x => ∀ w, J w → wpOk K me x (fun a w => Q a ∧ J w) w
  pure := fun h w hJ => wpOk_pure fun w' hr => ⟨h, hrely w w' hr hJ⟩
  bind := fun hx hf w hJ => wpOk_bind (wpOk_mono (hx w hJ) fun a w' h => hf a h.1 w' h.2)
  attempt := fun hx w hJ =>
    wpOk_attempt (wpOk_mono (hx w hJ) fun _ w h w' hr => ⟨h.1, hrely w w' hr h.2⟩)
  weaken := fun hx hQ w hJ => wpOk_mono (hx w hJ) fun a _ h => ⟨hQ a h.1, h.2⟩
  store := fun {o} ho w hJ w₁ hr c r w₂ hc ha => by
    obtain ⟨hg, hJ₂⟩ := hquiet _ w₁ c r w₂ ho (hrely w w₁ hr hJ) hc ha
    obtain ⟨a, rfl⟩ := hok o w₁ c r w₂ ho hc ha
    exact ⟨hg, fun w' hr' => ⟨a, rfl, Sys.call_honest (world_call hc).1, hrely w₂ w' hr' hJ₂⟩⟩
  await := fun {o} ho w hJ w₁ hr c r w₂ hc ha => by
    obtain ⟨hg, hJ₂⟩ := hquiet _ w₁ c r w₂ ho (hrely w w₁ hr hJ) hc ha
    exact ⟨hg, fun w' hr' => ⟨r, rfl, trivial, hrely w₂ w' hr' hJ₂⟩⟩

end

namespace Engine

variable {lower : String → String} {w : Worker} {e e' : Engine lower} {l : Label}

/-- Every task meets its contract and will end with `Q`. -/
def Meets (K : Tag → Nat → Contract (machine lower) Tag)
    (Q : Tag → Nat → World (machine lower) Tag → Prop) (e : Engine lower) : Prop :=
  e.pool.Sound K Q

variable {K : Tag → Nat → Contract (machine lower) Tag}
  {Q : Tag → Nat → World (machine lower) Tag → Prop}

theorem meets_boot (db : Db) (clock : Time) : (boot lower db clock).Meets K Q :=
  ⟨rfl, fun i t p ht _ => by simp [boot] at ht⟩

theorem Meets.of_dead (he : e.Meets K Q) {i : Nat} {t : Tag}
    (ht : e.pool.world.tags[i]? = some t) (hd : e.pool.live i = false) : Q t i e.pool.world := by
  have hi : i < e.pool.progs.length := by
    rw [he.length_eq]
    exact (List.getElem?_eq_some_iff.mp ht).1
  have hp := List.getElem?_eq_getElem hi
  cases hprog : e.pool.progs[i] with
  | ret a =>
    rw [hprog] at hp
    exact he.meets i t _ ht hp _ ((K t i).rely_refl _)
  | call o k =>
    rw [hprog] at hp
    simp [Pool.live, hp, Prog.isDone] at hd

/-- Task `j` is not disturbed by the move from `e` to a world `w'`. -/
def Undisturbed (K : Tag → Nat → Contract (machine lower) Tag)
    (Q : Tag → Nat → World (machine lower) Tag → Prop) (e : Engine lower)
    (w' : World (machine lower) Tag) (j : Nat) (t : Tag) : Prop :=
  Pool.Undisturbed K Q e.pool w' j t

theorem contracts_step (he : e.Meets K Q) (h : e.step w l = some e')
    (hnew : ∀ t, e'.pool.world.tags = e.pool.world.tags ++ [t] →
      (K t e.pool.progs.length).wp e.pool.progs.length (w.code t)
        (fun _ => Q t e.pool.progs.length) e'.pool.world)
    (hassume : ∀ i c t o k r, l = .task i c → e.pool.world.tags[i]? = some t →
      e.pool.progs[i]? = some (.call o k) →
      e.pool.world.call i o c = some (r, e'.pool.world) →
      (K t i).assume o e.pool.world r e'.pool.world)
    (hothers : ∀ j t, e.pool.world.tags[j]? = some t → (∀ c, l ≠ .task j c) →
      Undisturbed K Q e e'.pool.world j t) :
    e'.Meets K Q := by
  have hout : (∀ i c, l ≠ .task i c) → ∀ j t, e.pool.world.tags[j]? = some t →
      Undisturbed K Q e e'.pool.world j t := fun hl j t ht => hothers j t ht (hl j)
  cases step_cases h with
  | task hP =>
    refine Pool.sched_sound he hP (fun t o k r ht hp hc => hassume _ _ t o k r rfl ht hp hc) ?_
    intro j t hji ht
    exact hothers j t ht fun c hl => by cases hl; exact hji rfl
  | recv hs =>
    exact Pool.spawn_sound (P := e.pool) he rfl (hnew _ rfl) (hout (fun _ _ hl => by cases hl))
  | request => exact Pool.spawn_sound he rfl (hnew _ rfl) (hout (fun _ _ hl => by cases hl))
  | start hs => exact Pool.spawn_sound he rfl (hnew _ rfl) (hout (fun _ _ hl => by cases hl))
  | scanFailed hs hf => exact Pool.env_sound he rfl (hout (fun _ _ hl => by cases hl))
  | scan hs hf => exact Pool.env_sound he rfl (hout (fun _ _ hl => by cases hl))
  | tick hs => exact he
  | advance hs hl => exact he

end Engine

end Uptimepage
