import Uptimepage.Agent.Agent

/-!
# Requests that share

A request carries the buffer and the waiting flow runs, and a later request carries
something of an earlier one only when the earlier one was given up (`Agent.Sharing`).
`Traced` adds a history to the agent: for each row of the two tables, the request whose
copy stored it.
-/

namespace Uptimepage

open Async

def IngestRequest.resultNumbers (req : IngestRequest) : List Nat := req.results.map Prod.fst

def IngestRequest.flowRunNumbers (req : IngestRequest) : List Nat := req.flowRuns.map Prod.fst

namespace Agent

/-- The request with this id is under way no more, and had no success. -/
def GivenUp (a : Agent) (id : Uuid) : Prop :=
  (∀ req ∈ a.confirmed, req.batchId ≠ id) ∧ ∀ req ∈ a.inFlight, req.batchId ≠ id

instance (a : Agent) : DecidablePred a.GivenUp :=
  fun _ => inferInstanceAs (Decidable (_ ∧ _))

/-- The requests are numbered as they were built; those that share an item with a later one
were given up. -/
structure Sharing (numbers : IngestRequest → List Nat) (a : Agent) : Prop where
  numbered : ∀ id (req : IngestRequest), a.posted[id]? = some req → req.batchId = id
  confirmed : ∀ req ∈ a.confirmed, a.posted[req.batchId]? = some req
  last : ∀ req ∈ a.inFlight, req.batchId + 1 = a.posted.length
  shared : ∀ (i j : Nat) (earlier later : IngestRequest), a.posted[i]? = some earlier →
    a.posted[j]? = some later → i < j → ∀ n ∈ numbers earlier, n ∈ numbers later → a.GivenUp i

variable {numbers : IngestRequest → List Nat} {cfg : AgentConfig} {a a' : Agent}
  {e : AgentEvent}

theorem sharing_start : start.Sharing numbers where
  numbered := by intro id req h; simp [start] at h
  confirmed := by intro req h; cases h
  last := by intro req h; cases h
  shared := by intro i j earlier later h; simp [start] at h

theorem Sharing.of_eq (h : a.Sharing numbers) (hposted : a'.posted = a.posted)
    (hconfirmed : a'.confirmed = a.confirmed) (hinFlight : a'.inFlight = a.inFlight) :
    a'.Sharing numbers where
  numbered := by rw [hposted]; exact h.numbered
  confirmed := by rw [hposted, hconfirmed]; exact h.confirmed
  last := by rw [hposted, hinFlight]; exact h.last
  shared := by
    have hgiven : ∀ i, a'.GivenUp i ↔ a.GivenUp i := by
      intro i
      rw [GivenUp, GivenUp, hconfirmed, hinFlight]
    simp only [hgiven, hposted]
    exact h.shared

theorem sharing_post (h : a.Sharing numbers)
    (hfresh : ∀ req ∈ a.confirmed, ∀ n ∈ numbers req, n ∉ numbers a.request)
    (hposted : a'.posted = a.posted ++ [a.request])
    (hconfirmed : a'.confirmed = a.confirmed) (hinFlight : a'.inFlight = some a.request) :
    a'.Sharing numbers := by
  have hold : ∀ {id : Nat} {req : IngestRequest}, a'.posted[id]? = some req →
      a.posted[id]? = some req ∨ id = a.posted.length ∧ req = a.request := by
    intro id req hreq
    rw [hposted, List.getElem?_append] at hreq
    split at hreq
    · exact .inl hreq
    · next hge =>
      obtain ⟨hlt, hget⟩ := List.getElem?_eq_some_iff.mp hreq
      have hid : id = a.posted.length := by simp at hlt; omega
      subst hid
      simp at hget
      exact .inr ⟨rfl, hget.symm⟩
  have hlt : ∀ {id : Nat} {req : IngestRequest}, a.posted[id]? = some req →
      id < a.posted.length := fun hreq => (List.getElem?_eq_some_iff.mp hreq).1
  have hnew : ∀ i, i < a.posted.length → ∀ req ∈ a'.inFlight, req.batchId ≠ i := by
    intro i hi req hreq
    rw [hinFlight] at hreq
    obtain rfl : a.request = req := Option.some.inj hreq
    exact Nat.ne_of_gt hi
  refine ⟨fun id req hreq => ?_, fun req hreq => ?_, fun req hreq => ?_,
    fun i j earlier later hi hj hij n hn hn' => ?_⟩
  · rcases hold hreq with hreq | ⟨rfl, rfl⟩
    · exact h.numbered id req hreq
    · rfl
  · rw [hconfirmed] at hreq
    have hreq := h.confirmed req hreq
    rw [hposted, List.getElem?_append_left (hlt hreq)]
    exact hreq
  · rw [hinFlight] at hreq
    obtain rfl : a.request = req := Option.some.inj hreq
    rw [hposted, List.length_append]
    rfl
  · have hi' : a.posted[i]? = some earlier := by
      rcases hold hi with hi | ⟨rfl, -⟩
      · exact hi
      · rcases hold hj with hj | ⟨rfl, -⟩
        · exact absurd (hlt hj) (by omega)
        · exact absurd hij (Nat.lt_irrefl _)
    refine ⟨?_, hnew i (hlt hi')⟩
    rw [hconfirmed]
    rcases hold hj with hj | ⟨rfl, rfl⟩
    · exact (h.shared i j earlier later hi' hj hij n hn hn').1
    · rintro req hreq rfl
      have hsame := h.confirmed req hreq
      rw [hi'] at hsame
      cases hsame
      exact hfresh earlier hreq n hn hn'

theorem sharing_ended (h : a.Sharing numbers) (hissued : a.Issued) {req : IngestRequest}
    (hreq : a.inFlight = some req) (hposted : a'.posted = a.posted)
    (hconfirmed : a'.confirmed = a.confirmed ∨ a'.confirmed = a.confirmed ++ [req])
    (hinFlight : a'.inFlight = none) : a'.Sharing numbers := by
  refine ⟨by rw [hposted]; exact h.numbered, fun r hr => ?_, fun r hr => ?_,
    fun i j earlier later hi hj hij n hn hn' => ?_⟩
  · rw [hposted]
    rcases hconfirmed with hsame | hmore
    · rw [hsame] at hr
      exact h.confirmed r hr
    · rw [hmore] at hr
      rcases List.mem_append.mp hr with hr | hr
      · exact h.confirmed r hr
      · rw [List.mem_singleton.mp hr]
        exact hissued.inFlight req hreq
  · rw [hinFlight] at hr
    cases hr
  · rw [hposted] at hi hj
    have hgiven := h.shared i j earlier later hi hj hij n hn hn'
    refine ⟨fun r hr => ?_, fun r hr => ?_⟩
    · rcases hconfirmed with hsame | hmore
      · rw [hsame] at hr
        exact hgiven.1 r hr
      · rw [hmore] at hr
        rcases List.mem_append.mp hr with hr | hr
        · exact hgiven.1 r hr
        · rw [List.mem_singleton.mp hr]
          exact hgiven.2 req hreq
    · rw [hinFlight] at hr
      cases hr

theorem sharing_step (h : a.Sharing numbers) (hissued : a.Issued)
    (hfresh : ∀ req ∈ a.confirmed, ∀ n ∈ numbers req, n ∉ numbers a.request)
    (hstep : a.step cfg e = some a') : a'.Sharing numbers := by
  cases e with
  | batcher e =>
    obtain ⟨e', b, -, -, rfl⟩ := step_batcher hstep
    exact h.of_eq rfl rfl rfl
  | produce run | forget id =>
    cases hstep
    exact h.of_eq rfl rfl rfl
  | post =>
    obtain ⟨-, -, ⟨b, -, -, rfl⟩ | ⟨-, rfl⟩⟩ := step_post hstep
    · exact h.of_eq rfl rfl rfl
    · exact sharing_post h hfresh rfl rfl rfl
  | send =>
    obtain ⟨req, -, rfl⟩ := step_send hstep
    exact h.of_eq rfl rfl rfl
  | handle i env =>
    obtain ⟨req, plane, reply, -, -, rfl⟩ := step_handle hstep
    exact h.of_eq rfl rfl rfl
  | acknowledged =>
    obtain ⟨req, b, hreq, -, -, rfl⟩ := step_acknowledged hstep
    exact sharing_ended h hissued hreq rfl (.inr rfl) rfl
  | giveUp =>
    obtain ⟨req, b, hreq, -, rfl⟩ := step_giveUp hstep
    exact sharing_ended h hissued hreq rfl (.inl rfl) rfl

/-! ## Who stored what -/

theorem step_tables (hstep : a.step cfg e = some a') (hquiet : ∀ i env, e ≠ .handle i env) :
    (a'.posted = a.posted ∨ a'.posted = a.posted ++ [a.request]) ∧
      a'.plane.results = a.plane.results ∧ a'.plane.flowRuns = a.plane.flowRuns := by
  cases e with
  | batcher e =>
    obtain ⟨e', b, -, -, rfl⟩ := step_batcher hstep
    exact ⟨.inl rfl, rfl, rfl⟩
  | produce run | forget id =>
    cases hstep
    exact ⟨.inl rfl, rfl, rfl⟩
  | post =>
    obtain ⟨-, -, ⟨b, -, -, rfl⟩ | ⟨-, rfl⟩⟩ := step_post hstep
    · exact ⟨.inl rfl, rfl, rfl⟩
    · exact ⟨.inr rfl, rfl, rfl⟩
  | send =>
    obtain ⟨req, -, rfl⟩ := step_send hstep
    exact ⟨.inl rfl, rfl, rfl⟩
  | handle i env => exact absurd rfl (hquiet i env)
  | acknowledged =>
    obtain ⟨req, b, -, -, -, rfl⟩ := step_acknowledged hstep
    exact ⟨.inl rfl, rfl, rfl⟩
  | giveUp =>
    obtain ⟨req, b, -, -, rfl⟩ := step_giveUp hstep
    exact ⟨.inl rfl, rfl, rfl⟩

/-- The agent with, for each row of the two tables in turn, the request whose copy stored
it and the item it was made from. -/
structure Traced where
  agent : Agent
  results : List (Uuid × Nat)
  flowRuns : List (Uuid × Nat)
deriving DecidableEq

namespace Traced

def start : Traced where
  agent := .start
  results := []
  flowRuns := []

def step (cfg : AgentConfig) (t : Traced) : AgentEvent → Option Traced
  | .handle i env => do
    let req ← t.agent.wire[i]?
    let a ← t.agent.step cfg (.handle i env)
    let results := t.agent.plane.results.since a.plane.results
    let flowRuns := t.agent.plane.flowRuns.since a.plane.flowRuns
    return { agent := a, results := t.results ++ results.map (Prod.mk req.batchId)
             flowRuns := t.flowRuns ++ flowRuns.map (Prod.mk req.batchId) }
  | e => (t.agent.step cfg e).map fun a => { t with agent := a }

variable {t t' : Traced}

theorem step_agent (h : t.step cfg e = some t') : t.agent.step cfg e = some t'.agent := by
  cases e with
  | handle i env =>
    obtain ⟨req, -, h⟩ := Option.bind_eq_some_iff.mp h
    obtain ⟨a, ha, h⟩ := Option.bind_eq_some_iff.mp h
    cases h
    exact ha
  | batcher _ | produce _ | post | send | acknowledged | giveUp | forget _ =>
    simp only [step] at h
    obtain ⟨a, ha, rfl⟩ := Option.map_eq_some_iff.mp h
    exact ha

end Traced

/-- Each row is there once under the request that stored it, which carries its item. -/
structure Tagged (numbers : IngestRequest → List Nat) (posted : List IngestRequest)
    (stored : List (Uuid × Nat)) (items : List Nat) : Prop where
  items : stored.map Prod.snd = items
  posted : ∀ p ∈ stored, ∃ req, posted[p.1]? = some req ∧ p.2 ∈ numbers req

variable {posted : List IngestRequest} {stored : List (Uuid × Nat)} {items : List Nat}

theorem Tagged.grow (h : Tagged numbers posted stored items) (req : IngestRequest) :
    Tagged numbers (posted ++ [req]) stored items := by
  refine ⟨h.items, fun p hp => ?_⟩
  obtain ⟨old, hold, hn⟩ := h.posted p hp
  refine ⟨old, ?_, hn⟩
  rwa [List.getElem?_append_left (List.getElem?_eq_some_iff.mp hold).1]

theorem Tagged.store {Row : Type} {old new : DedupTable Row} {req : IngestRequest}
    (h : Tagged numbers posted stored old.items) (hreq : posted[req.batchId]? = some req)
    (hgrows : old.items <+: new.items) (hmine : ∀ n ∈ old.since new, n ∈ numbers req) :
    Tagged numbers posted (stored ++ (old.since new).map (Prod.mk req.batchId)) new.items := by
  refine ⟨?_, fun p hp => ?_⟩
  · rw [DedupTable.items_eq_append_since hgrows, List.map_append, h.items, List.map_map]
    simp [Function.comp_def]
  · rcases List.mem_append.mp hp with hp | hp
    · exact h.posted p hp
    · obtain ⟨n, hn, rfl⟩ := List.mem_map.mp hp
      exact ⟨req, hreq, hmine n hn⟩

theorem ingestResults_grows {agent : AgentIdentity} {env : IngestEnv} {p p' : ControlPlane}
    {req : IngestRequest} {reply : IngestReply}
    (h : ingestResults agent env p req = (p', reply)) :
    (p.results.items <+: p'.results.items ∧
      ∀ n ∈ p.results.since p'.results, n ∈ req.resultNumbers) ∧
    p.flowRuns.items <+: p'.flowRuns.items ∧
      ∀ n ∈ p.flowRuns.since p'.flowRuns, n ∈ req.flowRunNumbers := by
  rcases ingestResults_cases h with ⟨rfl, -, -⟩ | ⟨assigned, -, hflow, hresults, -⟩
  · simp [DedupTable.since]
  rw [hresults, hflow]
  refine ⟨?_, ?_⟩
  · obtain ⟨hgrows, hmine⟩ := writeBatchInner_grows env.resultTtl agent.region agent.agentId
      p.results (env.keptResults assigned req.results) env.resultAttempts
    refine ⟨hgrows, fun n hn => ?_⟩
    exact (retainResults_sublist _ _ _).subset (hmine n hn)
  · unfold storeFlowRuns
    split
    · obtain ⟨hgrows, hmine⟩ := writeInner_grows env.flowTtl agent.region p.flowRuns
        (env.keptRuns assigned req.flowRuns) env.flowAttempts
      refine ⟨hgrows, fun n hn => ?_⟩
      have hkept := hmine n hn
      rw [keptRuns_items] at hkept
      exact (retainAssigned_sublist assigned req.flowRuns).subset hkept
    · simp [DedupTable.since]

namespace Traced

variable {t t' : Traced}

/-- The two histories of a traced agent are those of its tables. -/
structure Recorded (t : Traced) : Prop where
  results : Tagged IngestRequest.resultNumbers t.agent.posted t.results
    t.agent.plane.results.items
  flowRuns : Tagged IngestRequest.flowRunNumbers t.agent.posted t.flowRuns
    t.agent.plane.flowRuns.items

theorem recorded_start : start.Recorded := by
  refine ⟨⟨rfl, ?_⟩, ⟨rfl, ?_⟩⟩ <;> intro p hp <;> cases hp

theorem recorded_step (h : t.Recorded) (hissued : t.agent.Issued)
    (hstep : t.step cfg e = some t') : t'.Recorded := by
  cases e with
  | handle i env =>
    obtain ⟨req, hreq, hstep⟩ := Option.bind_eq_some_iff.mp hstep
    obtain ⟨a, ha, hstep⟩ := Option.bind_eq_some_iff.mp hstep
    cases hstep
    obtain ⟨req', plane, reply, hreq', hingest, rfl⟩ := step_handle ha
    rw [hreq] at hreq'
    cases hreq'
    have hposted := hissued.wire req (List.mem_of_getElem? hreq)
    obtain ⟨⟨hgrows, hmine⟩, hgrows', hmine'⟩ := ingestResults_grows hingest
    exact ⟨h.results.store hposted hgrows hmine, h.flowRuns.store hposted hgrows' hmine'⟩
  | batcher _ | produce _ | post | send | acknowledged | giveUp | forget _ =>
    simp only [step] at hstep
    obtain ⟨a, ha, rfl⟩ := Option.map_eq_some_iff.mp hstep
    obtain ⟨hposted, hresults, hflow⟩ := step_tables ha (by simp)
    refine ⟨?_, ?_⟩
    · show Tagged _ a.posted t.results a.plane.results.items
      rw [hresults]
      rcases hposted with hsame | hmore
      · rw [hsame]
        exact h.results
      · rw [hmore]
        exact h.results.grow _
    · show Tagged _ a.posted t.flowRuns a.plane.flowRuns.items
      rw [hflow]
      rcases hposted with hsame | hmore
      · rw [hsame]
        exact h.flowRuns
      · rw [hmore]
        exact h.flowRuns.grow _

end Traced

/-- The request sends again what a copy stored before: a copy of its own, or one of a
request it shares with, the earlier of the two having been given up. -/
def Retries (a : Agent) (stored : List (Uuid × Nat)) (id : Uuid) (items : List Nat) : Prop :=
  ∃ p ∈ stored, p.2 ∈ items ∧ (p.1 = id ∨ a.GivenUp (min p.1 id))

instance (a : Agent) (stored : List (Uuid × Nat)) (id : Uuid) (items : List Nat) :
    Decidable (a.Retries stored id items) :=
  inferInstanceAs (Decidable (∃ _ ∈ _, _))

theorem retries_iff {a : Agent} {table : List Nat} (h : a.Sharing numbers)
    (htagged : Tagged numbers a.posted stored table) {req : IngestRequest}
    (hreq : a.posted[req.batchId]? = some req) (hitems : ∀ n ∈ items, n ∈ numbers req) :
    a.Retries stored req.batchId items ↔ ∃ n ∈ items, n ∈ table := by
  constructor
  · rintro ⟨p, hp, hn, -⟩
    refine ⟨p.2, hn, ?_⟩
    rw [← htagged.items]
    exact List.mem_map_of_mem hp
  · rintro ⟨n, hn, hstored⟩
    rw [← htagged.items] at hstored
    obtain ⟨p, hp, rfl⟩ := List.mem_map.mp hstored
    obtain ⟨other, hother, hshared⟩ := htagged.posted p hp
    refine ⟨p, hp, hn, ?_⟩
    rcases Nat.lt_trichotomy p.1 req.batchId with hlt | heq | hgt
    · right
      rw [Nat.min_eq_left (Nat.le_of_lt hlt)]
      exact h.shared _ _ other req hother hreq hlt _ hshared (hitems _ hn)
    · exact .inl heq
    · right
      rw [Nat.min_eq_right (Nat.le_of_lt hgt)]
      exact h.shared _ _ req other hreq hother hgt _ (hitems _ hn) hshared

end Agent

end Uptimepage
