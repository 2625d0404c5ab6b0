import Uptimepage.Escalation.Contracts

/-!
# The page locks

Only the task that took a page lock lets it go (`lockContract`, met by all code:
`code_locks`), so a task that holds one keeps it through every move of the others:
`held_step`.
-/

namespace Uptimepage

open Async Async.Fallible Job QuietLogic

section
variable {lower : String → String} {me : Nat}

theorem Sys.call_locks {o : Op} {c : Choice} {r : o.Res} {s s' : Sys}
    (h : Sys.call lower me o c s = some (r, s')) :
    (∃ sh, o = .lock sh ∧ s.locks sh = none ∧
        s'.locks = fun x => if x = sh then some me else s.locks x) ∨
      (∃ sh, o = .unlock sh ∧ s'.locks = fun x => if x = sh then none else s.locks x) ∨
      s'.locks = s.locks := by
  cases o with
  | store so =>
    rcases Sys.call_store h with ⟨-, -, rfl⟩ | ⟨-, -, rfl⟩ <;> exact .inr (.inr rfl)
  | begin =>
    simp only [Sys.call] at h
    split at h <;> cases h <;> exact .inr (.inr rfl)
  | lock shard =>
    simp only [Sys.call] at h
    split at h
    · cases h
    · next hfree =>
      cases h
      exact .inl ⟨shard, rfl, hfree, rfl⟩
  | unlock shard =>
    simp only [Sys.call, Option.some.injEq] at h
    cases h
    exact .inr (.inl ⟨shard, rfl, rfl⟩)
  | _ =>
    simp only [Sys.call, Option.some.injEq] at h
    cases h
    exact .inr (.inr rfl)

/-- A task keeps the locks it holds, and lets go only of those. -/
def lockContract (me : Nat) : Contract (machine lower) Tag where
  rely := fun w w' => ∀ sh, w.store.locks sh = some me → w'.store.locks sh = some me
  assume := fun _ _ _ _ => True
  guar := fun o w _ _ => ∀ sh, o = .unlock sh → w.store.locks sh = some me
  rely_refl := fun _ _ h => h
  rely_trans := fun h₁ h₂ sh h => h₂ sh (h₁ sh h)

variable {w w' : World (machine lower) Tag} {org : OrgId} {k : Uuid}

theorem lock_call {o : Op} {c : Choice} {r : o.Res} (h : w.call me o c = some (r, w'))
    (ho : ∀ sh, o ≠ .unlock sh) : (lockContract me).rely w w' := by
  intro sh hheld
  rcases Sys.call_locks (world_call h).1 with ⟨x, -, -, heq⟩ | ⟨x, rfl, -⟩ | heq
  · rw [heq]
    by_cases hx : sh = x
    · simp [hx]
    · simpa [hx] using hheld
  · exact absurd rfl (ho x)
  · rw [heq]
    exact hheld

theorem lock_dropped {sh : Nat} {c : Choice} {r : Op.Res (.unlock sh)}
    (h : w.call me (.unlock sh) c = some (r, w')) {x : Nat} (hx : x ≠ sh)
    (hheld : w.store.locks x = some me) : w'.store.locks x = some me := by
  rcases Sys.call_locks (world_call h).1 with ⟨y, hy, -⟩ | ⟨y, hy, heq⟩ | heq
  · cases hy
  · cases hy
    rw [heq]
    simpa [hx] using hheld
  · rw [heq]
    exact hheld

/-- Ending with the locks held at the start is a logic of paging code. -/
def locking (lower : String → String) (me : Nat) (org : OrgId) (k : Uuid) : PageLogic org k where
  Holds := fun Q x => ∀ w : World (machine lower) Tag, (lockContract me).wp me x
    (fun r w' => okSat Q r ∧ (lockContract me).rely w w') w
  pure := fun h _ _ hr => ⟨h, hr⟩
  bind := fun {_ _ Q Q' x f} hx hf w => by
    refine Contract.wp_andThen (Contract.wp_mono (fun r w₁ hr => ?_) (hx w))
    cases r with
    | ok a =>
      refine Contract.wp_mono (fun _ w₂ hr₂ => ⟨hr₂.1, ?_⟩) (hf a hr.1 w₁)
      exact (lockContract me).rely_trans hr.2 hr₂.2
    | error e => exact fun w₂ hr₂ => ⟨trivial, (lockContract me).rely_trans hr.2 hr₂⟩
  attempt := fun {_ Q x} hx w => Contract.wp_attempt (Contract.wp_mono
    (fun _ _ hr _ hr' => ⟨hr.1, (lockContract me).rely_trans hr.2 hr'⟩) (hx w))
  weaken := fun {_ Q Q' x} hx hQ w =>
    Contract.wp_mono (fun r _ hr => ⟨by
      cases r with
      | ok a => exact hQ a hr.1
      | error e => trivial, hr.2⟩) (hx w)
  store := fun _ w w₁ hr c r w₂ hc _ =>
    ⟨fun _ h => (by cases h), fun w' hr' => ⟨Sys.call_honest (world_call hc).1,
      (lockContract me).rely_trans hr
        ((lockContract me).rely_trans (lock_call hc fun _ h => by cases h) hr')⟩⟩
  await := fun {o} ho w w₁ hr c r w₂ hc _ => by
    have hun : ∀ sh, o ≠ .unlock sh := by
      rintro sh rfl
      cases ho with
      | own h => cases h
    exact ⟨fun sh h => absurd h (hun sh), fun w' hr' => ⟨trivial,
      (lockContract me).rely_trans hr
        ((lockContract me).rely_trans (lock_call hc hun) hr')⟩⟩
  rest := fun _ w w₁ hr c r w₂ hc _ =>
    ⟨fun _ h => (by cases h), fun w' hr' => ⟨Sys.call_honest (world_call hc).1,
      (lockContract me).rely_trans hr
        ((lockContract me).rely_trans (lock_call hc fun _ h => by cases h) hr')⟩⟩
  locked := fun {_ Q x} hx w w₁ hr c r w₂ hc _ => by
    obtain ⟨hfree, htaken⟩ := lock_taken hc
    refine ⟨fun _ h => (by cases h),
      Contract.wp_bind (Contract.wp_mono (fun r₃ w₃ h₃ => ?_) (hx w₂))⟩
    intro w₄ hr₄ c₄ r₄ w₅ hc₄ _
    have hkept : (lockContract me).rely w w₄ := (lockContract me).rely_trans hr
      ((lockContract me).rely_trans (lock_call hc fun _ h => by cases h)
        ((lockContract me).rely_trans h₃.2 hr₄))
    refine ⟨fun sh h => ?_, fun w' hr' => ⟨h₃.1, fun sh hsh => hr' sh ?_⟩⟩
    · cases h
      exact hr₄ _ (h₃.2 _ htaken)
    · -- the lock was free when the task took it, so it is not one the task came with
      have hne : sh ≠ pageLock k := by
        rintro rfl
        rw [hr _ hsh] at hfree
        cases hfree
      exact lock_dropped hc₄ hne (hkept sh hsh)

theorem locking_store (o : StoreOp) : (locking lower me org k).Runs (store o) := by
  intro w w₁ hr c r w₂ hc _
  refine ⟨fun _ h => (by cases h), fun w' hr' => ⟨?_, ?_⟩⟩
  · cases r <;> trivial
  · exact (lockContract me).rely_trans hr
      ((lockContract me).rely_trans (lock_call hc fun _ h => by cases h) hr')

theorem locking_canSend (reason : NotificationReason) :
    (locking lower me org k).CanSend k reason where
  notify := fun _ _ _ w w₁ hr c r w₂ hc _ =>
    ⟨fun _ h => (by cases h), fun w' hr' => ⟨trivial, (lockContract me).rely_trans hr
      ((lockContract me).rely_trans (lock_call hc fun _ h => by cases h) hr')⟩⟩
  mark := fun _ _ => locking_store _
  health := fun _ _ => locking_store _

theorem locking_canPage (wk : Worker) (reason : NotificationReason) :
    (locking lower me org k).CanPage wk reason :=
  fun _ level targets paged hid hreason => pageChannels_runs wk (locking_canSend reason) level
    hid hreason (fun _ _ => locking_store _) targets paged

theorem locks_detach {x : Job Unit} (h : (locking lower me org k).Runs x)
    (w : World (machine lower) Tag) : (lockContract me).wp me x.detach (fun _ _ => True) w :=
  Contract.wp_detach (Contract.wp_mono (fun _ _ _ _ _ => trivial) (h w))

theorem code_locks (wk : Worker) (t : Tag) (me : Nat) (w : World (machine lower) Tag) :
    (lockContract me).wp me (wk.code t) (fun _ _ => True) w := by
  cases t with
  | signal sig => exact locks_detach (pageWith_runs wk (fun _ => locking_canPage wk _) .apply) w
  | item it =>
    cases it with
    | reconcile d => exact locks_detach (pageWith_runs wk (fun _ => locking_canPage wk _) .apply) w
    | release d => exact locks_detach (releaseOne_runs wk d fun _ _ => locking_canPage wk _) w
    | escalate d => exact locks_detach (escalateOne_runs wk d (locking_canPage wk _)) w
    | renotify d => exact locks_detach (renotifyOne_runs wk d (locking_canPage wk _)) w
    | retry p => exact locks_detach (k := p.incidentId) (retryOne_runs wk p (locking_canSend _)) w
    | pollAck a =>
      refine wp_of_all (code_all wk (.item (.pollAck a))) fun o w₁ r w₂ ho sh h => ?_
      subst h
      cases ho with
      | quiet h =>
        cases h with
        | own h => cases h
  | request r =>
    refine wp_of_all (code_all wk (.request r)) fun o w₁ r w₂ ho sh h => ?_
    subst h
    cases ho

end

namespace Engine

variable {lower : String → String} {wk : Worker} {e e' : Engine lower} {l : Label}

def Locked (e : Engine lower) : Prop := e.Meets (fun _ => lockContract) fun _ _ _ => True

theorem locked_boot (db : Db) (clock : Time) : (boot lower db clock).Locked := meets_boot db clock

theorem held_step (he : e.Locked) (h : e.step wk l = some e') {j sh : Nat}
    (hj : ∀ c, l ≠ .task j c) (hheld : e.sys.locks sh = some j) : e'.sys.locks sh = some j := by
  cases step_cases h with
  | @task i c P hP =>
    have hij : i ≠ j := fun hij => hj c (by rw [hij])
    obtain ⟨t, o, q, r, -, -, hc, -, hmeet⟩ := Pool.sched_guar he hP
    have hguar := (hmeet trivial).1
    rcases Sys.call_locks (world_call hc).1 with ⟨x, -, hfree, heq⟩ | ⟨x, hx, heq⟩ | heq
    · have hne : sh ≠ x := by
        rintro rfl
        rw [hheld] at hfree
        cases hfree
      change P.world.store.locks sh = some j
      rw [heq]
      simpa [hne] using hheld
    · have hne : sh ≠ x := by
        rintro rfl
        have := hguar sh hx
        rw [hheld] at this
        exact hij (Option.some.inj this).symm
      change P.world.store.locks sh = some j
      rw [heq]
      simpa [hne] using hheld
    · change P.world.store.locks sh = some j
      rw [heq]
      exact hheld
  | _ => exact hheld

theorem locked_step (he : e.Locked) (h : e.step wk l = some e') : e'.Locked := by
  refine contracts_step he h (fun t _ => code_locks wk t _ _) ?_ ?_
  · intros
    trivial
  · intro j t _ hl
    exact .inl fun sh hheld => held_step he h hl hheld

end Engine

end Uptimepage
