import Mathlib.Algebra.GroupWithZero.Nat
import Mathlib.Data.List.Nodup
import Mathlib.Data.List.Perm.Basic
import Uptimepage.Async.Run

/-!
# Idempotency keys

`api/idempotency.rs` around the bulk routes of `api/routes.rs`.  The middleware looks
the key up, runs everything behind it (authentication, the rate limit, the handler) and stores
what came back, in three steps and without reserving the key.  The cache key is made of the caller's credential, the header and the body, and not
of the route, so the two bulk endpoints share their entries.
-/

namespace Uptimepage

open Async

inductive BulkEndpoint
  | bulk
  | bulkAction
deriving DecidableEq

/-- `body` is `none` when it could not be read or is over the 8 MiB the middleware takes. -/
structure BulkRequest where
  endpoint : BulkEndpoint
  authorization : Option String
  cookie : Option String
  idempotencyKey : Option String
  body : Option String
deriving DecidableEq

structure CachedResponse where
  status : Nat
  contentType : Option String
  body : String
deriving DecidableEq

/-- The text `caller:key:body`; the two hashes have sixteen digits each, so it determines
its parts. -/
structure CacheKey where
  caller : Nat
  key : String
  body : Nat
deriving DecidableEq

/-- The key of a request, with `hash` for the `DefaultHasher`.  `none` passes through. -/
def cacheKey (hash : List String → Nat) (req : BulkRequest) : Option CacheKey := do
  let key ← req.idempotencyKey
  let body ← req.body
  return { caller := hash [req.authorization.getD "", req.cookie.getD ""], key, body := hash [body] }

/-- A request behind the lookup: `answered` once `next.run` came back. -/
inductive FlightPhase
  | running
  | answered (response : CachedResponse)
deriving DecidableEq

structure Flight where
  key : CacheKey
  endpoint : BulkEndpoint
  phase : FlightPhase
deriving DecidableEq

/-- One execution of a bulk handler; no response when the request was dropped before the
handler answered. -/
structure Execution where
  key : CacheKey
  endpoint : BulkEndpoint
  response : Option CachedResponse
deriving DecidableEq

/-- One response served from the cache. -/
structure Replay where
  key : CacheKey
  endpoint : BulkEndpoint
  response : CachedResponse
deriving DecidableEq

/-- The cache, the requests under way, and the history. -/
structure Idempotency where
  cache : List (CacheKey × CachedResponse)
  inFlight : List Flight
  executions : List Execution
  replays : List Replay
deriving DecidableEq

/-- What `next.run` comes to: a response of the authentication or rate-limit layer, or the
handler's. -/
inductive Outcome
  | turnedAway (response : CachedResponse)
  | handled (response : CachedResponse)
deriving DecidableEq

/-- `dropped` is a connection that goes away, the handler having run or not; `stored` is
the end of the middleware, `readable` unless the response body is over 8 MiB; `forgotten`
is an expiry or an eviction. -/
inductive IdempotencyEvent
  | arrived (req : BulkRequest)
  | answered (i : Nat) (outcome : Outcome)
  | stored (i : Nat) (readable : Bool)
  | dropped (i : Nat) (ran : Bool)
  | forgotten (key : CacheKey)

namespace Idempotency

def start : Idempotency where
  cache := []
  inFlight := []
  executions := []
  replays := []

def lookup (s : Idempotency) (k : CacheKey) : Option CachedResponse :=
  (s.cache.find? (·.1 = k)).map Prod.snd

def store (s : Idempotency) (k : CacheKey) (c : CachedResponse) : Idempotency :=
  { s with cache := (k, c) :: s.cache.filter (·.1 ≠ k) }

def step (hash : List String → Nat) (s : Idempotency) : IdempotencyEvent → Option Idempotency
  | .arrived req =>
    match cacheKey hash req with
    | none => some s
    | some k =>
      match s.lookup k with
      | some c => some { s with replays := s.replays ++ [⟨k, req.endpoint, c⟩] }
      | none => some { s with inFlight := s.inFlight ++ [⟨k, req.endpoint, .running⟩] }
  | .answered i outcome =>
    match s.inFlight[i]? with
    | some ⟨k, endpoint, .running⟩ =>
      match outcome with
      | .turnedAway c =>
        some { s with inFlight := s.inFlight.set i ⟨k, endpoint, .answered c⟩ }
      | .handled c =>
        some { s with inFlight := s.inFlight.set i ⟨k, endpoint, .answered c⟩,
                      executions := s.executions ++ [⟨k, endpoint, some c⟩] }
    | _ => none
  | .stored i readable =>
    match s.inFlight[i]? with
    | some ⟨k, _, .answered c⟩ =>
      let s := { s with inFlight := s.inFlight.eraseIdx i }
      some (if readable then s.store k c else s)
    | _ => none
  | .dropped i ran =>
    match s.inFlight[i]? with
    | some ⟨k, endpoint, .running⟩ =>
      some { s with inFlight := s.inFlight.eraseIdx i,
                    executions := if ran then s.executions ++ [⟨k, endpoint, none⟩]
                      else s.executions }
    | some ⟨_, _, .answered _⟩ => some { s with inFlight := s.inFlight.eraseIdx i }
    | none => none
  | .forgotten k => some { s with cache := s.cache.filter (·.1 ≠ k) }

/-- At most one execution under a key, replays of what the handler answered at the same
endpoint, and no entry under a key whose handler has not run. -/
structure Faithful (s : Idempotency) : Prop where
  once : (s.executions.map (·.key)).Nodup
  replayed : ∀ r ∈ s.replays, ⟨r.key, r.endpoint, some r.response⟩ ∈ s.executions
  unblocked : ∀ k, (∀ x ∈ s.executions, x.key ≠ k) → s.lookup k = none

/-- A request arrives when none with its key is under way, and when the handler has run
under the key, then at the same endpoint and with the response still in the cache.  No
request with a key is turned away. -/
def Spaced (hash : List String → Nat) (s : Idempotency) : IdempotencyEvent → Prop
  | .arrived req => ∀ k ∈ cacheKey hash req, (∀ f ∈ s.inFlight, f.key ≠ k) ∧
    ∀ x ∈ s.executions, x.key = k → x.endpoint = req.endpoint ∧ (s.lookup k).isSome
  | .answered _ (.turnedAway _) => False
  | _ => True

instance (hash : List String → Nat) (s : Idempotency) : DecidablePred (s.Spaced hash)
  | .arrived _ => inferInstanceAs (Decidable (∀ _ ∈ _, _ ∧ _))
  | .answered _ (.turnedAway _) => inferInstanceAs (Decidable False)
  | .answered _ (.handled _) | .stored _ _ | .dropped _ _ | .forgotten _ =>
    inferInstanceAs (Decidable True)

/-! ## The cache -/

theorem lookup_store_self (s : Idempotency) (k : CacheKey) (c : CachedResponse) :
    (s.store k c).lookup k = some c := by
  simp [lookup, store]

theorem lookup_store_other {s : Idempotency} {k k' : CacheKey} (h : k ≠ k') (c : CachedResponse) :
    (s.store k c).lookup k' = s.lookup k' := by
  have hfilter : (s.cache.filter (·.1 ≠ k)).find? (·.1 = k') = s.cache.find? (·.1 = k') := by
    rw [List.find?_filter]
    congr 1
    funext e
    by_cases he : e.1 = k'
    · simp [he, h.symm]
    · simp [he]
  unfold lookup store
  rw [List.find?_cons]
  simp only [h, decide_false]
  rw [hfilter]

theorem lookup_forgotten {s : Idempotency} {k k' : CacheKey} {c : CachedResponse}
    (h : ({ s with cache := s.cache.filter (·.1 ≠ k) } : Idempotency).lookup k' = some c) :
    s.lookup k' = some c := by
  unfold lookup at h ⊢
  rw [List.find?_filter] at h
  obtain ⟨e, he, rfl⟩ := Option.map_eq_some_iff.mp h
  have hk : e.1 ≠ k ∧ e.1 = k' := by simpa using List.find?_some he
  have hsame : s.cache.find? (·.1 = k') = some e := by
    rw [← he]
    congr 1
    funext x
    by_cases hx : x.1 = k'
    · have : k' ≠ k := hk.2 ▸ hk.1
      simp [hx, this]
    · simp [hx]
  rw [hsame]
  rfl

/-! ## Requests under way -/

variable {l : List Flight} {i : Nat} {f g : Flight}

theorem keys_set (h : l[i]? = some f) (hkey : g.key = f.key) :
    (l.set i g).map (·.key) = l.map (·.key) := by
  obtain ⟨hi, rfl⟩ := List.getElem?_eq_some_iff.mp h
  have hi' : i < (l.map (·.key)).length := by simpa using hi
  have hmap : l[i].key = (l.map (·.key))[i] := by simp
  rw [List.map_set, hkey, hmap, List.set_getElem_self]

theorem key_ne_of_mem_eraseIdx (hl : (l.map (·.key)).Nodup) (h : l[i]? = some f)
    (hg : g ∈ l.eraseIdx i) : g.key ≠ f.key := by
  obtain ⟨hi, rfl⟩ := List.getElem?_eq_some_iff.mp h
  have hperm := (List.getElem_cons_eraseIdx_perm hi).map (·.key)
  have hnodup := hperm.nodup_iff.mpr hl
  rw [List.map_cons, List.nodup_cons] at hnodup
  intro hkey
  exact hnodup.1 (hkey ▸ List.mem_map_of_mem hg)

/-- Requests with a key each, a running one without an execution and an answered one with
its own; entries that executions made. -/
structure Sound (s : Idempotency) : Prop where
  flights : (s.inFlight.map (·.key)).Nodup
  running : ∀ f ∈ s.inFlight, f.phase = .running → ∀ x ∈ s.executions, x.key ≠ f.key
  answered : ∀ f ∈ s.inFlight, ∀ c, f.phase = .answered c →
    ⟨f.key, f.endpoint, some c⟩ ∈ s.executions
  cached : ∀ k c, s.lookup k = some c → ∃ endpoint, ⟨k, endpoint, some c⟩ ∈ s.executions
  once : (s.executions.map (·.key)).Nodup
  replayed : ∀ r ∈ s.replays, ⟨r.key, r.endpoint, some r.response⟩ ∈ s.executions

theorem sound_start : start.Sound := by
  refine ⟨List.nodup_nil, ?_, ?_, ?_, List.nodup_nil, ?_⟩
  · intro f hf
    cases hf
  · intro f hf
    cases hf
  · intro k c hk
    cases hk
  · intro r hr
    cases hr

variable {hash : List String → Nat} {s s' : Idempotency} {e : IdempotencyEvent}

theorem once_append (h : (s.executions.map (·.key)).Nodup) {x : Execution}
    (hx : ∀ y ∈ s.executions, y.key ≠ x.key) :
    ((s.executions ++ [x]).map (·.key)).Nodup := by
  rw [List.map_append, List.nodup_append']
  refine ⟨h, List.nodup_singleton _, fun k hk hx' => ?_⟩
  obtain ⟨y, hy, rfl⟩ := List.mem_map.mp hk
  rw [List.map_singleton, List.mem_singleton] at hx'
  exact hx y hy hx'

theorem sound_arrived {req : BulkRequest} (h : s.Sound) (hspaced : s.Spaced hash (.arrived req))
    (hstep : s.step hash (.arrived req) = some s') : s'.Sound := by
  simp only [step] at hstep
  split at hstep
  · cases hstep
    exact h
  · next k hkey =>
    obtain ⟨hfree, hearlier⟩ := hspaced k hkey
    split at hstep
    · next c hhit =>
      cases hstep
      refine { h with replayed := fun r hr => ?_ }
      rcases List.mem_append.mp hr with hold | hnew
      · exact h.replayed r hold
      · rw [List.mem_singleton.mp hnew]
        obtain ⟨endpoint, hx⟩ := h.cached k c hhit
        obtain ⟨rfl, -⟩ := hearlier _ hx rfl
        exact hx
    · next hmiss =>
      cases hstep
      refine { h with flights := ?_, running := fun f hf hphase => ?_,
                      answered := fun f hf c hphase => ?_ }
      · rw [List.map_append, List.nodup_append']
        refine ⟨h.flights, List.nodup_singleton _, fun k' hold hnew => ?_⟩
        obtain ⟨f, hf, rfl⟩ := List.mem_map.mp hold
        exact hfree f hf (List.mem_singleton.mp hnew)
      · rcases List.mem_append.mp hf with hold | hnew
        · exact h.running f hold hphase
        · rw [List.mem_singleton.mp hnew]
          -- an execution under the key would have left its response in the cache
          intro x hx hxk
          have hsome := (hearlier x hx hxk).2
          rw [hmiss] at hsome
          cases hsome
      · rcases List.mem_append.mp hf with hold | hnew
        · exact h.answered f hold c hphase
        · rw [List.mem_singleton.mp hnew] at hphase
          cases hphase

theorem sound_handled {i : Nat} {c : CachedResponse} (h : s.Sound)
    (hstep : s.step hash (.answered i (.handled c)) = some s') : s'.Sound := by
  simp only [step] at hstep
  split at hstep
  · next k endpoint hf =>
    cases hstep
    have hmine := h.running _ (List.mem_of_getElem? hf) rfl
    have hkeys : (s.inFlight.set i ⟨k, endpoint, .answered c⟩).map (·.key) =
        s.inFlight.map (·.key) := keys_set hf rfl
    have hnodup := hkeys ▸ h.flights
    obtain ⟨hi, -⟩ := List.getElem?_eq_some_iff.mp hf
    have hself : ⟨k, endpoint, .answered c⟩ ∈ s.inFlight.set i ⟨k, endpoint, .answered c⟩ :=
      List.mem_set hi _
    refine ⟨hnodup, fun g hg hphase => ?_, fun g hg c' hphase => ?_, fun k' c' hk' => ?_,
      once_append h.once hmine, fun r hr => List.mem_append_left _ (h.replayed r hr)⟩
    · intro x hx
      rcases List.mem_append.mp hx with hold | hnew
      · rcases List.mem_or_eq_of_mem_set hg with hg' | rfl
        · exact h.running g hg' hphase x hold
        · cases hphase
      · rw [List.mem_singleton.mp hnew]
        intro hkey
        have := List.inj_on_of_nodup_map hnodup hself hg hkey
        rw [← this] at hphase
        cases hphase
    · rcases List.mem_or_eq_of_mem_set hg with hg' | rfl
      · exact List.mem_append_left _ (h.answered g hg' c' hphase)
      · cases hphase
        exact List.mem_append_right _ List.mem_cons_self
    · obtain ⟨endpoint', hx⟩ := h.cached k' c' hk'
      exact ⟨endpoint', List.mem_append_left _ hx⟩
  · cases hstep

theorem sound_stored {i : Nat} {readable : Bool} (h : s.Sound)
    (hstep : s.step hash (.stored i readable) = some s') : s'.Sound := by
  simp only [step] at hstep
  split at hstep
  · next k endpoint c hf =>
    have hsub : (s.inFlight.eraseIdx i).Sublist s.inFlight := List.eraseIdx_sublist ..
    have hleft : ({ s with inFlight := s.inFlight.eraseIdx i } : Idempotency).Sound :=
      { h with flights := h.flights.sublist (hsub.map _)
               running := fun g hg => h.running g (hsub.subset hg)
               answered := fun g hg => h.answered g (hsub.subset hg) }
    cases hstep
    split
    · refine { hleft with cached := fun k' c' hk' => ?_ }
      by_cases hkk : k = k'
      · subst hkk
        rw [lookup_store_self] at hk'
        cases hk'
        exact ⟨endpoint, h.answered _ (List.mem_of_getElem? hf) c rfl⟩
      · rw [lookup_store_other hkk] at hk'
        exact h.cached k' c' hk'
    · exact hleft
  · cases hstep

theorem sound_dropped {i : Nat} {ran : Bool} (h : s.Sound)
    (hstep : s.step hash (.dropped i ran) = some s') : s'.Sound := by
  have hsub : (s.inFlight.eraseIdx i).Sublist s.inFlight := List.eraseIdx_sublist ..
  have hleft : ({ s with inFlight := s.inFlight.eraseIdx i } : Idempotency).Sound :=
    { h with flights := h.flights.sublist (hsub.map _)
             running := fun g hg => h.running g (hsub.subset hg)
             answered := fun g hg => h.answered g (hsub.subset hg) }
  simp only [step] at hstep
  split at hstep
  · next k endpoint hf =>
    cases hstep
    cases ran with
    | false => exact hleft
    | true =>
      have hmine := h.running _ (List.mem_of_getElem? hf) rfl
      refine ⟨hleft.flights, fun g hg hphase x hx => ?_, fun g hg c hphase => ?_,
        fun k' c' hk' => ?_, once_append h.once hmine,
        fun r hr => List.mem_append_left _ (h.replayed r hr)⟩
      · rcases List.mem_append.mp hx with hold | hnew
        · exact h.running g (hsub.subset hg) hphase x hold
        · rw [List.mem_singleton.mp hnew]
          exact (key_ne_of_mem_eraseIdx h.flights hf hg).symm
      · exact List.mem_append_left _ (h.answered g (hsub.subset hg) c hphase)
      · obtain ⟨endpoint', hx⟩ := h.cached k' c' hk'
        exact ⟨endpoint', List.mem_append_left _ hx⟩
  · cases hstep
    exact hleft
  · cases hstep

theorem sound_step (h : s.Sound) (hspaced : s.Spaced hash e) (hstep : s.step hash e = some s') :
    s'.Sound := by
  cases e with
  | arrived req => exact sound_arrived h hspaced hstep
  | answered i outcome =>
    cases outcome with
    | turnedAway c => exact hspaced.elim
    | handled c => exact sound_handled h hstep
  | stored i readable => exact sound_stored h hstep
  | dropped i ran => exact sound_dropped h hstep
  | forgotten k =>
    cases hstep
    exact { h with cached := fun k' c hk' => h.cached k' c (lookup_forgotten hk') }

/-- **An idempotency key means one execution and a faithful replay**, in every run of
spaced requests. -/
theorem faithful_of_spaced (hrun : Run (step hash) (Spaced hash) start s) : s.Faithful := by
  have h : s.Sound := hrun.invariant sound_start fun _ _ _ hu hok hstep => sound_step hu hok hstep
  refine ⟨h.once, h.replayed, fun k hnone => ?_⟩
  cases hlookup : s.lookup k with
  | none => rfl
  | some c =>
    obtain ⟨endpoint, hx⟩ := h.cached k c hlookup
    exact absurd rfl (hnone _ hx)

namespace Sample

/-- A hash good enough for the requests below. -/
def digest (parts : List String) : Nat := (parts.map String.length).sum

def request (endpoint : BulkEndpoint) : BulkRequest where
  endpoint := endpoint
  authorization := some "Bearer t"
  cookie := none
  idempotencyKey := some "k1"
  body := some "[]"

def created : CachedResponse where
  status := 200
  contentType := some "application/json"
  body := "[]"

def rejected : CachedResponse where
  status := 429
  contentType := none
  body := "slow down"

end Sample

/-- A request, its response, and a retry that is replayed. -/
theorem faithful_of_spaced_replayed :
    ∃ s, Run (step Sample.digest) (Spaced Sample.digest) start s ∧ s.executions.length = 1 ∧
      s.replays.map (·.response) = [Sample.created] ∧ s.Faithful := by
  let events : List IdempotencyEvent := [.arrived (Sample.request .bulk),
    .answered 0 (.handled Sample.created), .stored 0 true, .arrived (Sample.request .bulk)]
  obtain ⟨s, hrun, hs⟩ : ∃ s : Idempotency,
      Run (step Sample.digest) (fun s e => s.Spaced Sample.digest e) start s ∧
        s.executions.length = 1 ∧ s.replays.map (·.response) = [Sample.created] :=
    exists_guarded_run events (by decide +kernel)
  obtain ⟨hcount, hreplay⟩ := hs
  exact ⟨s, hrun, hcount, hreplay, faithful_of_spaced hrun⟩

/-- The two endpoints share their keys. -/
example : cacheKey Sample.digest (Sample.request .bulk) =
    cacheKey Sample.digest (Sample.request .bulkAction) := by decide +kernel

/-- Two requests that overlap execute twice; a request to the other endpoint is answered
with the first one's response; and a request the rate limit turned away is replayed to its
retry, which never executes. -/
theorem key_reused :
    (∃ s, Run (step Sample.digest) (fun _ _ => True) start s ∧
      ¬ (s.executions.map (·.key)).Nodup) ∧
    (∃ s, Run (step Sample.digest) (fun _ _ => True) start s ∧
      ∃ r ∈ s.replays, ∀ x ∈ s.executions, x.endpoint ≠ r.endpoint) ∧
    (∃ s, Run (step Sample.digest) (fun _ _ => True) start s ∧ s.executions = [] ∧
      s.replays.map (·.response) = [Sample.rejected]) := by
  refine ⟨?_, ?_, ?_⟩
  · let events : List IdempotencyEvent := [.arrived (Sample.request .bulk),
      .arrived (Sample.request .bulk), .answered 0 (.handled Sample.created),
      .answered 1 (.handled Sample.created)]
    obtain ⟨s, hrun, hs⟩ : ∃ s : Idempotency, Run (step Sample.digest) (fun _ _ => True) start s ∧
        ¬ (s.executions.map (·.key)).Nodup :=
      exists_run_satisfying events (by decide +kernel)
    exact ⟨s, hrun, hs⟩
  · let events : List IdempotencyEvent := [.arrived (Sample.request .bulk),
      .answered 0 (.handled Sample.created), .stored 0 true,
      .arrived (Sample.request .bulkAction)]
    obtain ⟨s, hrun, hs⟩ : ∃ s : Idempotency, Run (step Sample.digest) (fun _ _ => True) start s ∧
        ∃ r ∈ s.replays, ∀ x ∈ s.executions, x.endpoint ≠ r.endpoint :=
      exists_run_satisfying events (by decide +kernel)
    exact ⟨s, hrun, hs⟩
  · let events : List IdempotencyEvent := [.arrived (Sample.request .bulk),
      .answered 0 (.turnedAway Sample.rejected), .stored 0 true, .arrived (Sample.request .bulk)]
    obtain ⟨s, hrun, hs⟩ : ∃ s : Idempotency, Run (step Sample.digest) (fun _ _ => True) start s ∧
        s.executions = [] ∧ s.replays.map (·.response) = [Sample.rejected] :=
      exists_run_satisfying events (by decide +kernel)
    obtain ⟨hnone, hreplay⟩ := hs
    exact ⟨s, hrun, hnone, hreplay⟩

end Idempotency

end Uptimepage
