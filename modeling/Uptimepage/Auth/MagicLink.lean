import Mathlib.Algebra.GroupWithZero.Nat
import Mathlib.Data.List.GetD
import Uptimepage.Async.Run
import Uptimepage.Async.Slots
import Uptimepage.Domain.Incident
import Uptimepage.Store.Table

/-!
# Magic links

`auth/magic_link.rs` with the task the `request` handler of `api/handlers/magic_link.rs`
spawns.  Each statement is one step, except that `claim_send` is a transaction: it begins
(which fixes its `now()`), waits for the lock of the address, runs its `UPDATE`, and
commits.  A storage error makes the task stamp the row without the throttle.
-/

namespace Uptimepage

open Async

structure MagicLinkConfig where
  expiryMinutes : Nat
  rateLimitSeconds : Nat

/-- Argon2 (with its salt) and SHA-256. -/
structure Hashes where
  hash : Nat → String → String
  verify : String → String → Bool
  sha256Hex : String → String

inductive RedeemedVia
  | link
  | code
deriving DecidableEq

/-- A row of `magic_link_tokens`. -/
structure MagicLinkToken where
  id : Uuid
  email : String
  tokenHash : String
  tokenPrefix : String
  createdAt : Time
  expiresAt : Time
  usedAt : Option Time
  redirectAfter : Option String
  invitationId : Option Uuid
  codeHash : Option String
  codeSpentAt : Option Time
  nonceHash : Option String
  sentAt : Option Time
  supersededAt : Option Time
  redeemedVia : Option RedeemedVia
deriving DecidableEq

/-- First 16 characters of a raw token. -/
def slicePrefix (raw : String) : String := String.ofList (raw.toList.take 16)

/-! ## Codes -/

def codeAlphabet : List Char := "0123456789ABCDEFGHJKMNPQRSTVWXYZ".toList

def codeLen : Nat := 6

/-- The code that random bytes spell. -/
def generateCode (bytes : List UInt8) : List Char :=
  bytes.map fun b => codeAlphabet.getD (b.toNat % codeAlphabet.length) '0'

def foldCodeChar (c : Char) : Char :=
  match c.toUpper with
  | 'O' => '0'
  | 'I' | 'L' => '1'
  | other => other

/-- A pasted newline or a typed `O` must not read as a wrong guess. -/
def normalizeCode (raw : List Char) : List Char :=
  (raw.filter Char.isAlphanum).map foldCodeChar

def codeIsWellFormed (normalized : List Char) : Bool :=
  normalized.length = codeLen && normalized.all codeAlphabet.contains

/-! ## The machine -/

/-- What a request passes to `create`, with the secrets drawn for it. -/
structure NewMagicLink where
  id : Uuid
  email : String
  redirectAfter : Option String
  invitationId : Option Uuid
  nonce : Option String
  token : String
  tokenSalt : Nat
  code : List UInt8
  codeSalt : Nat
  /-- The row's `now()`, and the clock of the process. -/
  createdAt : Time
  appNow : Time

def create (cfg : MagicLinkConfig) (hs : Hashes) (new : NewMagicLink) : MagicLinkToken where
  id := new.id
  email := new.email
  tokenHash := hs.hash new.tokenSalt new.token
  tokenPrefix := slicePrefix new.token
  createdAt := new.createdAt
  expiresAt := new.appNow + seconds (cfg.expiryMinutes * 60)
  usedAt := none
  redirectAfter := new.redirectAfter
  invitationId := new.invitationId
  codeHash := some (hs.hash new.codeSalt (String.ofList (generateCode new.code)))
  codeSpentAt := none
  nonceHash := new.nonce.map hs.sha256Hex
  sentAt := none
  supersededAt := none
  redeemedVia := none

/-- Where the task of a request is.  A claim carries the `now()` of its transaction. -/
inductive SendPhase
  | queued
  | claiming (began : Time)
  | locked (began : Time)
  | stamped (began : Time)
  | restamping
  | sending
  | releasing
  | mailed
  | done
deriving DecidableEq

structure SendTask where
  row : Uuid
  email : String
  phase : SendPhase
deriving DecidableEq

/-- A mail that left: the stamp its row carries, and when it left. -/
structure Mail where
  row : Uuid
  email : String
  stamp : Option Time
  leftAt : Time
deriving DecidableEq

/-- A guess that found its row; `verified` once it matched. -/
structure CodeTry where
  row : Uuid
  guess : List Char
  verified : Bool
deriving DecidableEq

structure Guess where
  row : Uuid
  guess : List Char
deriving DecidableEq

structure SignIn where
  row : Uuid
  via : RedeemedVia
deriving DecidableEq

/-- The table, the requests under way, and the history. -/
structure MagicLinks where
  now : Time
  rows : List MagicLinkToken
  sends : List SendTask
  /-- Rows that `consume` found and has not marked yet. -/
  links : List Uuid
  codes : List CodeTry
  mails : List Mail
  compared : List Guess
  signIns : List SignIn
  storageErrors : Nat
deriving DecidableEq

/-- What the task of a request does next. -/
inductive SendEvent
  | policyRefused
  | claim
  | lock
  | update
  | commit
  | claimFailed
  | restamp (ok : Bool)
  | sent (ok : Bool)
  | release (ok : Bool)
  | supersedeOthers (ok : Bool)
  | dropped

inductive MagicLinkEvent
  | tick (t : Time)
  | requested (new : NewMagicLink)
  /-- The first-run link: no nonce, and no task that mails it. -/
  | printed (new : NewMagicLink)
  | send (i : Nat) (e : SendEvent)
  | consume (token : String)
  | markUsed (i : Nat)
  | linkDropped (i : Nat)
  | consumeCode (nonce : String) (code : List Char)
  | spend (i : Nat)
  | redeem (i : Nat)
  | codeDropped (i : Nat)

namespace MagicLinks

def start (now : Time) : MagicLinks where
  now := now
  rows := []
  sends := []
  links := []
  codes := []
  mails := []
  compared := []
  signIns := []
  storageErrors := 0

/-- `UPDATE magic_link_tokens SET f WHERE id = $1 AND p`. -/
def updateRow (s : MagicLinks) (id : Uuid) (p : MagicLinkToken → Bool)
    (f : MagicLinkToken → MagicLinkToken) : MagicLinks :=
  { s with rows := Table.update (fun r => r.id == id && p r) f s.rows }

/-- Whether that statement changes a row. -/
def affects (s : MagicLinks) (id : Uuid) (p : MagicLinkToken → Bool) : Bool :=
  s.rows.any fun r => r.id == id && p r

def get (s : MagicLinks) (id : Uuid) : Option MagicLinkToken := s.rows.find? (·.id == id)

def setPhase (s : MagicLinks) (i : Nat) (t : SendTask) (phase : SendPhase) : MagicLinks :=
  { s with sends := s.sends.set i { t with phase } }

def failed (s : MagicLinks) : MagicLinks := { s with storageErrors := s.storageErrors + 1 }

/-- `sent_at = at`, whatever the row says. -/
def stamp (s : MagicLinks) (id : Uuid) (sentAt : Option Time) : MagicLinks :=
  s.updateRow id (fun _ => true) fun r => { r with sentAt }

/-- `used_at = now()` where it is null. -/
def markUsed (s : MagicLinks) (id : Uuid) (via : RedeemedVia) : MagicLinks :=
  if s.affects id (·.usedAt.isNone) then
    let used := s.updateRow id (·.usedAt.isNone) fun r =>
      { r with usedAt := some s.now, redeemedVia := some via }
    { used with signIns := s.signIns ++ [⟨id, via⟩] }
  else s

def addMail (s : MagicLinks) (t : SendTask) : MagicLinks :=
  { s with mails := s.mails ++ [⟨t.row, t.email, (s.get t.row).bind (·.sentAt), s.now⟩] }

def findLiveCandidate (hs : Hashes) (s : MagicLinks) (token : String) : Option MagicLinkToken :=
  (s.rows.filter fun r => r.tokenPrefix == slicePrefix token && r.usedAt.isNone &&
    r.supersededAt.isNone && decide (s.now < r.expiresAt)).find? fun r =>
      hs.verify token r.tokenHash

/-- The row `consume_code` looks up. -/
def findByNonce (hs : Hashes) (s : MagicLinks) (nonce : String) : Option MagicLinkToken :=
  (Table.firstBy (fun r => -r.createdAt) 1 <| s.rows.filter fun r =>
    r.nonceHash == some (hs.sha256Hex nonce) && r.usedAt.isNone && r.supersededAt.isNone &&
    r.codeSpentAt.isNone && r.sentAt.isSome && r.codeHash.isSome &&
    decide (s.now < r.expiresAt)).head?

/-- `make_interval`'s argument, which the source caps at what an `i32` holds. -/
def window (cfg : MagicLinkConfig) : Time := seconds (min cfg.rateLimitSeconds 2147483647)

/-- `(created_at, id) < (created_at, id)`. -/
def older (r k : MagicLinkToken) : Bool :=
  decide (r.createdAt < k.createdAt) || (r.createdAt == k.createdAt && decide (r.id < k.id))

/-- What `supersede_others` retires for the kept row `id`. -/
def superseding (lower : String → String) (s : MagicLinks) (email : String) (id : Uuid)
    (r : MagicLinkToken) : Bool :=
  lower r.email == lower email && r.id != id && r.nonceHash.isSome && r.usedAt.isNone &&
    r.supersededAt.isNone && (s.get id).any (older r)

def supersedeOthers (lower : String → String) (s : MagicLinks) (email : String) (id : Uuid) :
    MagicLinks :=
  { s with rows := Table.update (s.superseding lower email id)
             (fun r => { r with supersededAt := some s.now }) s.rows }

/-- The condition of the claiming `UPDATE`, but for the id. -/
def claimable (cfg : MagicLinkConfig) (lower : String → String) (s : MagicLinks)
    (email : String) (began : Time) (r : MagicLinkToken) : Bool :=
  r.sentAt.isNone && !s.rows.any fun other => lower other.email == lower email &&
    other.sentAt.any fun t => decide (began - window cfg < t)

end MagicLinks

def SendTask.holdsLock (t : SendTask) : Bool :=
  match t.phase with
  | .locked _ | .stamped _ => true
  | _ => false

namespace MagicLinks

variable (cfg : MagicLinkConfig) (hs : Hashes) (lower toLowercase : String → String)

/-- `magic_link_send_lock_key`, over Rust's own `to_lowercase`. -/
def magicLinkSendLockKey (email : String) : String := "magic_link_send:" ++ toLowercase email

/-- One step of task `t`, the `i`-th. -/
def stepSend (s : MagicLinks) (i : Nat) (t : SendTask) : SendEvent → SendPhase → Option MagicLinks
  | .policyRefused, .queued => some (s.setPhase i t .done)
  | .claim, .queued =>
    if cfg.rateLimitSeconds = 0 then some ((s.stamp t.row (some s.now)).setPhase i t .sending)
    else some (s.setPhase i t (.claiming s.now))
  | .lock, .claiming began =>
    if s.sends.any fun u => magicLinkSendLockKey toLowercase u.email ==
        magicLinkSendLockKey toLowercase t.email && u.holdsLock then none
    else some (s.setPhase i t (.locked began))
  | .update, .locked began =>
    if s.affects t.row (s.claimable cfg lower t.email began) then
      some (s.setPhase i t (.stamped began))
    else some (s.setPhase i t .done)
  | .commit, .stamped began => some ((s.stamp t.row (some began)).setPhase i t .sending)
  | .claimFailed, .queued | .claimFailed, .claiming _ | .claimFailed, .locked _
  | .claimFailed, .stamped _ => some (s.failed.setPhase i t .restamping)
  | .restamp true, .restamping => some ((s.stamp t.row (some s.now)).setPhase i t .sending)
  | .restamp false, .restamping => some (s.failed.setPhase i t .sending)
  | .sent true, .sending => some ((s.addMail t).setPhase i t .mailed)
  | .sent false, .sending => some (s.setPhase i t .releasing)
  | .release true, .releasing => some ((s.stamp t.row none).setPhase i t .done)
  | .release false, .releasing => some (s.failed.setPhase i t .done)
  | .supersedeOthers true, .mailed =>
    some ((s.supersedeOthers lower t.email t.row).setPhase i t .done)
  | .supersedeOthers false, .mailed => some (s.failed.setPhase i t .done)
  | .dropped, _ => some (s.setPhase i t .done)
  | _, _ => none

/-- One step of a guess, the `i`-th: spending the attempt and comparing, or redeeming. -/
def stepCode (s : MagicLinks) (i : Nat) (t : CodeTry) : MagicLinks :=
  let claimed := s.rows.find? fun r => r.id == t.row && r.codeSpentAt.isNone
  let spent := s.updateRow t.row (·.codeSpentAt.isNone) fun r => { r with codeSpentAt := some s.now }
  match claimed.bind (·.codeHash) with
  | none => { spent with codes := s.codes.eraseIdx i }
  | some codeHash =>
    { spent with
      compared := s.compared ++ [⟨t.row, t.guess⟩]
      codes := if hs.verify (String.ofList t.guess) codeHash then
          s.codes.set i { t with verified := true }
        else s.codes.eraseIdx i }

def step (s : MagicLinks) : MagicLinkEvent → Option MagicLinks
  | .tick t => if s.now ≤ t then some { s with now := t } else none
  | .requested new =>
    if s.rows.any (·.id == new.id) || new.nonce.isNone || decide (s.now < new.createdAt) then none
    else some { s with rows := s.rows ++ [create cfg hs new],
                       sends := s.sends ++ [⟨new.id, new.email, .queued⟩] }
  | .printed new =>
    if s.rows.any (·.id == new.id) || new.nonce.isSome || decide (s.now < new.createdAt) then none
    else some { s with rows := s.rows ++ [create cfg hs new] }
  | .send i e => s.sends[i]?.bind fun t => stepSend cfg lower toLowercase s i t e t.phase
  | .consume token =>
    match findLiveCandidate hs s token with
    | some r => some { s with links := s.links ++ [r.id] }
    | none => some s
  | .markUsed i =>
    s.links[i]?.map fun id => { s.markUsed id .link with links := s.links.eraseIdx i }
  | .linkDropped i => some { s with links := s.links.eraseIdx i }
  | .consumeCode nonce code =>
    if codeIsWellFormed (normalizeCode code) then
      match findByNonce hs s nonce with
      | some r => some { s with codes := s.codes ++ [⟨r.id, normalizeCode code, false⟩] }
      | none => some s
    else some s
  | .spend i =>
    match s.codes[i]? with
    | some ⟨row, guess, false⟩ => some (stepCode hs s i ⟨row, guess, false⟩)
    | _ => none
  | .redeem i =>
    match s.codes[i]? with
    | some ⟨row, _, true⟩ =>
      some { s.markUsed row .code with codes := s.codes.eraseIdx i }
    | _ => none
  | .codeDropped i => some { s with codes := s.codes.eraseIdx i }

/-! ## The table only grows -/

/-- What no statement on a row undoes. -/
structure Grows (r r' : MagicLinkToken) : Prop where
  id : r'.id = r.id
  email : r'.email = r.email
  createdAt : r'.createdAt = r.createdAt
  usedAt : r.usedAt.isSome → r'.usedAt.isSome
  codeSpentAt : r.codeSpentAt.isSome → r'.codeSpentAt.isSome

theorem Grows.refl (r : MagicLinkToken) : Grows r r := ⟨rfl, rfl, rfl, fun h => h, fun h => h⟩

/-- The rows after a statement: each of the old ones grown, or one more. -/
inductive Grown (l : List MagicLinkToken) : List MagicLinkToken → Prop
  | update {p : MagicLinkToken → Bool} {f : MagicLinkToken → MagicLinkToken} :
      (∀ r, Grows r (f r)) → Grown l (Table.update p f l)
  | insert {new : MagicLinkToken} : (∀ r ∈ l, r.id ≠ new.id) → new.supersededAt = none →
      Grown l (l ++ [new])

namespace Grown

variable {l l' : List MagicLinkToken}

theorem refl (l : List MagicLinkToken) : Grown l l := by
  have h : Grown l (Table.update (fun _ => false) id l) := .update Grows.refl
  simpa [Table.update] using h

theorem keyed (h : Grown l l') (hl : (l.map (·.id)).Nodup) : (l'.map (·.id)).Nodup := by
  cases h with
  | update hf => rwa [Table.map_update fun r => (hf r).id]
  | insert hnew =>
    rw [List.map_append, List.nodup_append']
    refine ⟨hl, List.nodup_singleton _, fun k hk hk' => ?_⟩
    obtain ⟨r, hr, rfl⟩ := List.mem_map.mp hk
    exact hnew r hr (List.mem_singleton.mp hk')

theorem kept (h : Grown l l') {r : MagicLinkToken} (hr : r ∈ l) : ∃ r' ∈ l', Grows r r' := by
  cases h with
  | @update p f hf =>
    refine ⟨_, List.mem_map_of_mem hr, ?_⟩
    split
    · exact hf r
    · exact .refl r
  | insert _ => exact ⟨r, List.mem_append_left _ hr, .refl r⟩

end Grown

variable {cfg hs lower toLowercase} {s s' : MagicLinks} {e : MagicLinkEvent}

theorem rows_stamp (s : MagicLinks) (id : Uuid) (sentAt : Option Time) :
    Grown s.rows (s.stamp id sentAt).rows :=
  .update fun _ => ⟨rfl, rfl, rfl, fun h => h, fun h => h⟩

theorem rows_markUsed (s : MagicLinks) (id : Uuid) (via : RedeemedVia) :
    Grown s.rows (s.markUsed id via).rows := by
  unfold markUsed
  split
  · exact .update fun _ => ⟨rfl, rfl, rfl, fun _ => rfl, fun h => h⟩
  · exact .refl _

variable {i : Nat} {t : SendTask} {ph : SendPhase}

theorem rows_stepSend {e : SendEvent} (h : stepSend cfg lower toLowercase s i t e ph = some s') :
    Grown s.rows s'.rows := by
  unfold stepSend at h
  split at h <;> (try split at h) <;> cases h
  all_goals first
    | exact .refl _
    | exact rows_stamp ..
    | exact .update fun _ => ⟨rfl, rfl, rfl, fun h => h, fun h => h⟩

theorem rows_stepCode (hs : Hashes) (s : MagicLinks) (i : Nat) (t : CodeTry) :
    (stepCode hs s i t).rows = (s.updateRow t.row (·.codeSpentAt.isNone) fun r =>
      { r with codeSpentAt := some s.now }).rows := by
  simp only [stepCode]
  split <;> rfl

theorem rows_step (h : step cfg hs lower toLowercase s e = some s') : Grown s.rows s'.rows := by
  cases e with
  | requested new | printed new =>
    simp only [step] at h
    split at h
    · cases h
    · next hnew =>
      cases h
      simp only [Bool.or_eq_true, not_or, Bool.not_eq_true, List.any_eq_false, beq_iff_eq] at hnew
      exact .insert hnew.1.1 rfl
  | send i e =>
    obtain ⟨t, -, ht⟩ := Option.bind_eq_some_iff.mp h
    exact rows_stepSend ht
  | markUsed i =>
    obtain ⟨id, -, rfl⟩ := Option.map_eq_some_iff.mp h
    exact rows_markUsed s id .link
  | redeem i =>
    simp only [step] at h
    split at h
    · next row _ _ =>
      cases h
      exact rows_markUsed s row .code
    · cases h
  | spend i =>
    simp only [step] at h
    split at h
    · cases h
      rw [rows_stepCode]
      exact .update fun _ => ⟨rfl, rfl, rfl, fun h => h, fun _ => rfl⟩
    · cases h
  | tick t | consume token | consumeCode nonce code =>
    simp only [step] at h
    (repeat' split at h) <;> cases h <;> exact .refl _
  | linkDropped i | codeDropped i =>
    cases h
    exact .refl _

/-! ## One sign-in and one guess a row -/

/-- The ids in `history` are those of rows whose column is set, each once. -/
structure Marks (col : MagicLinkToken → Option Time) (rows : List MagicLinkToken)
    (history : List Uuid) : Prop where
  keyed : (rows.map (·.id)).Nodup
  nodup : history.Nodup
  marked : ∀ id ∈ history, ∃ r ∈ rows, r.id = id ∧ (col r).isSome

/-- The history is as it was, or grew by a row on which the column was null and now is set. -/
def Claims (col : MagicLinkToken → Option Time) (rows rows' : List MagicLinkToken)
    (history history' : List Uuid) : Prop :=
  history' = history ∨ ∃ id, (∃ r ∈ rows, r.id = id ∧ col r = none) ∧
    (∃ r ∈ rows', r.id = id ∧ (col r).isSome) ∧ history' = history ++ [id]

variable {col : MagicLinkToken → Option Time} {rows : List MagicLinkToken} {history : List Uuid}
  {p : MagicLinkToken → Bool} {f : MagicLinkToken → MagicLinkToken} {r k r' new : MagicLinkToken}

theorem Marks.step {rows' : List MagicLinkToken} {history' : List Uuid}
    (h : Marks col rows history) (hrows : Grown rows rows')
    (hcol : ∀ r r', Grows r r' → (col r).isSome → (col r').isSome)
    (hc : Claims col rows rows' history history') : Marks col rows' history' := by
  have hold : ∀ id ∈ history, ∃ r ∈ rows', r.id = id ∧ (col r).isSome := by
    intro id hid
    obtain ⟨r, hr, rfl, hset⟩ := h.marked id hid
    obtain ⟨r', hr', hg⟩ := hrows.kept hr
    exact ⟨r', hr', hg.id, hcol r r' hg hset⟩
  rcases hc with rfl | ⟨id, ⟨r, hr, rfl, hnull⟩, hset, rfl⟩
  · exact ⟨hrows.keyed h.keyed, h.nodup, hold⟩
  · refine ⟨hrows.keyed h.keyed, ?_, fun id hid => ?_⟩
    · rw [List.nodup_append']
      refine ⟨h.nodup, List.nodup_singleton _, fun id hid hid' => ?_⟩
      obtain rfl := List.mem_singleton.mp hid'
      obtain ⟨r₀, hr₀, hid₀, hset₀⟩ := h.marked _ hid
      have : r₀ = r := List.inj_on_of_nodup_map h.keyed hr₀ hr hid₀
      rw [this, hnull] at hset₀
      cases hset₀
    · rcases List.mem_append.mp hid with hid | hid
      · exact hold id hid
      · exact List.mem_singleton.mp hid ▸ hset

theorem claims_update {id : Uuid} (hr : r ∈ rows) (hid : r.id = id) (hnull : col r = none)
    (hp : p r = true) (hf : (f r).id = r.id) (hset : (col (f r)).isSome) :
    Claims col rows (Table.update p f rows) history (history ++ [id]) := by
  refine .inr ⟨id, ⟨r, hr, hid, hnull⟩, ⟨f r, ?_, hf.trans hid, hset⟩, rfl⟩
  have hmem := List.mem_map_of_mem (f := fun r => if p r then f r else r) hr
  simp only [hp, ↓reduceIte] at hmem
  exact hmem

theorem signIns_markUsed (s : MagicLinks) (id : Uuid) (via : RedeemedVia) :
    Claims (·.usedAt) s.rows (s.markUsed id via).rows (s.signIns.map (·.row))
      ((s.markUsed id via).signIns.map (·.row)) := by
  unfold markUsed
  split
  · next haffects =>
    obtain ⟨r, hr, hcond⟩ := List.any_eq_true.mp haffects
    simp only [Bool.and_eq_true, beq_iff_eq, Option.isNone_iff_eq_none] at hcond
    simp only [List.map_append, List.map_cons, List.map_nil]
    exact claims_update hr hcond.1 hcond.2 (by simp [hcond.1, hcond.2]) rfl rfl
  · exact .inl rfl

theorem signIns_stepSend {e : SendEvent} (h : stepSend cfg lower toLowercase s i t e ph = some s') :
    s'.signIns = s.signIns ∧ s'.compared = s.compared := by
  unfold stepSend at h
  split at h <;> (try split at h) <;> cases h <;> exact ⟨rfl, rfl⟩

theorem signIns_stepCode (hs : Hashes) (s : MagicLinks) (i : Nat) (t : CodeTry) :
    (stepCode hs s i t).signIns = s.signIns := by
  simp only [stepCode]
  split <;> rfl

theorem signIns_step (h : step cfg hs lower toLowercase s e = some s') :
    Claims (·.usedAt) s.rows s'.rows (s.signIns.map (·.row)) (s'.signIns.map (·.row)) := by
  cases e with
  | markUsed i =>
    obtain ⟨id, -, rfl⟩ := Option.map_eq_some_iff.mp h
    exact signIns_markUsed s id .link
  | redeem i =>
    simp only [step] at h
    split at h
    · next row _ _ =>
      cases h
      exact signIns_markUsed s row .code
    · cases h
  | send i e =>
    obtain ⟨t, -, ht⟩ := Option.bind_eq_some_iff.mp h
    exact .inl (by rw [(signIns_stepSend ht).1])
  | spend i =>
    simp only [step] at h
    split at h
    · cases h
      exact .inl (by rw [signIns_stepCode])
    · cases h
  | tick t | requested new | printed new | consume token | consumeCode nonce code =>
    simp only [step] at h
    (repeat' split at h) <;> cases h <;> exact .inl rfl
  | linkDropped i | codeDropped i =>
    cases h
    exact .inl rfl

theorem compared_stepCode (hs : Hashes) (s : MagicLinks) (i : Nat) (t : CodeTry) :
    Claims (·.codeSpentAt) s.rows (stepCode hs s i t).rows (s.compared.map (·.row))
      ((stepCode hs s i t).compared.map (·.row)) := by
  simp only [stepCode]
  split
  · exact .inl rfl
  · next codeHash hhash =>
    obtain ⟨r, hr, -⟩ := Option.bind_eq_some_iff.mp hhash
    have hcond : r.id = t.row ∧ r.codeSpentAt = none := by
      simpa using List.find?_some hr
    simp only [List.map_append, List.map_cons, List.map_nil]
    exact claims_update (List.mem_of_find?_eq_some hr) hcond.1 hcond.2
      (by simp [hcond.1, hcond.2]) rfl rfl

theorem compared_markUsed (s : MagicLinks) (id : Uuid) (via : RedeemedVia) :
    (s.markUsed id via).compared = s.compared := by
  unfold markUsed
  split <;> rfl

theorem compared_step (h : step cfg hs lower toLowercase s e = some s') :
    Claims (·.codeSpentAt) s.rows s'.rows (s.compared.map (·.row)) (s'.compared.map (·.row)) := by
  cases e with
  | spend i =>
    simp only [step] at h
    split at h
    · cases h
      exact compared_stepCode ..
    · cases h
  | markUsed i =>
    obtain ⟨id, -, rfl⟩ := Option.map_eq_some_iff.mp h
    exact .inl (congrArg _ (compared_markUsed s id .link))
  | redeem i =>
    simp only [step] at h
    split at h
    · next row _ _ =>
      cases h
      exact .inl (congrArg _ (compared_markUsed s row .code))
    · cases h
  | send i e =>
    obtain ⟨t, -, ht⟩ := Option.bind_eq_some_iff.mp h
    exact .inl (by rw [(signIns_stepSend ht).2])
  | tick t | requested new | printed new | consume token | consumeCode nonce code =>
    simp only [step] at h
    (repeat' split at h) <;> cases h <;> exact .inl rfl
  | linkDropped i | codeDropped i =>
    cases h
    exact .inl rfl

/-! ## The newest mail is kept -/

/-- The columns a send reads or writes. -/
structure SendView where
  id : Uuid
  email : String
  createdAt : Time
  sentAt : Option Time
  supersededAt : Option Time

def view (r : MagicLinkToken) : SendView :=
  ⟨r.id, r.email, r.createdAt, r.sentAt, r.supersededAt⟩

theorem older_congr {k' : MagicLinkToken} (hr : view r' = view r) (hk : view k' = view k) :
    older r' k' = older r k := by
  simp only [view, SendView.mk.injEq] at hr hk
  simp only [older, hr, hk]

/-- A step of anything but a request or its task. -/
structure Quiet (s s' : MagicLinks) : Prop where
  rows : s'.rows.map view = s.rows.map view
  sends : s'.sends = s.sends
  mails : s'.mails = s.mails
  storageErrors : s'.storageErrors = s.storageErrors

theorem Quiet.row (h : Quiet s s') (hr : r' ∈ s'.rows) : ∃ r ∈ s.rows, view r' = view r := by
  have hmem : view r' ∈ s.rows.map view := h.rows ▸ List.mem_map_of_mem hr
  obtain ⟨r, hr, heq⟩ := List.mem_map.mp hmem
  exact ⟨r, hr, heq.symm⟩

theorem Quiet.row' (h : Quiet s s') (hr : r ∈ s.rows) : ∃ r' ∈ s'.rows, view r' = view r := by
  have hmem : view r ∈ s'.rows.map view := h.rows ▸ List.mem_map_of_mem hr
  exact List.mem_map.mp hmem

theorem quiet_update (hrows : s'.rows = Table.update p f s.rows) (hf : ∀ r, view (f r) = view r)
    (hsends : s'.sends = s.sends) (hmails : s'.mails = s.mails)
    (herrors : s'.storageErrors = s.storageErrors) : Quiet s s' :=
  ⟨by rw [hrows, Table.map_update hf], hsends, hmails, herrors⟩

theorem quiet_markUsed (s : MagicLinks) (id : Uuid) (via : RedeemedVia) :
    Quiet s (s.markUsed id via) := by
  unfold markUsed
  split
  · exact quiet_update rfl (fun _ => rfl) rfl rfl rfl
  · exact ⟨rfl, rfl, rfl, rfl⟩

theorem quiet_stepCode (hs : Hashes) (s : MagicLinks) (i : Nat) (t : CodeTry) :
    Quiet s (stepCode hs s i t) := by
  refine quiet_update (rows_stepCode hs s i t) (fun _ => rfl) ?_ ?_ ?_ <;>
  · simp only [stepCode]
    split <;> rfl

inductive SendStep (cfg : MagicLinkConfig) (hs : Hashes) (lower toLowercase : String → String)
    (s s' : MagicLinks) : Prop
  | quiet : Quiet s s' → SendStep cfg hs lower toLowercase s s'
  | requested (new : NewMagicLink) : (∀ r ∈ s.rows, r.id ≠ new.id) →
      s' = { s with rows := s.rows ++ [create cfg hs new],
                    sends := s.sends ++ [⟨new.id, new.email, .queued⟩] } →
      SendStep cfg hs lower toLowercase s s'
  | printed (new : NewMagicLink) : (∀ r ∈ s.rows, r.id ≠ new.id) →
      s' = { s with rows := s.rows ++ [create cfg hs new] } →
      SendStep cfg hs lower toLowercase s s'
  | task (i : Nat) (t : SendTask) (e : SendEvent) : s.sends[i]? = some t →
      stepSend cfg lower toLowercase s i t e t.phase = some s' →
      SendStep cfg hs lower toLowercase s s'

theorem sendStep_of_step (h : step cfg hs lower toLowercase s e = some s') :
    SendStep cfg hs lower toLowercase s s' := by
  cases e with
  | requested new =>
    simp only [step] at h
    split at h
    · cases h
    · next hnew =>
      cases h
      simp only [Bool.or_eq_true, not_or, Bool.not_eq_true, List.any_eq_false, beq_iff_eq] at hnew
      exact .requested new hnew.1.1 rfl
  | printed new =>
    simp only [step] at h
    split at h
    · cases h
    · next hnew =>
      cases h
      simp only [Bool.or_eq_true, not_or, Bool.not_eq_true, List.any_eq_false, beq_iff_eq] at hnew
      exact .printed new hnew.1.1 rfl
  | send i e =>
    obtain ⟨t, hi, ht⟩ := Option.bind_eq_some_iff.mp h
    exact .task i t e hi ht
  | markUsed i =>
    obtain ⟨id, -, rfl⟩ := Option.map_eq_some_iff.mp h
    obtain ⟨hrows, hsends, hmails, herrors⟩ := quiet_markUsed s id .link
    exact .quiet ⟨hrows, hsends, hmails, herrors⟩
  | redeem i =>
    simp only [step] at h
    split at h
    · next row _ _ =>
      cases h
      obtain ⟨hrows, hsends, hmails, herrors⟩ := quiet_markUsed s row .code
      exact .quiet ⟨hrows, hsends, hmails, herrors⟩
    · cases h
  | spend i =>
    simp only [step] at h
    split at h
    · cases h
      exact .quiet (quiet_stepCode ..)
    · cases h
  | tick t | consume token | consumeCode nonce code =>
    simp only [step] at h
    (repeat' split at h) <;> cases h <;> exact .quiet ⟨rfl, rfl, rfl, rfl⟩
  | linkDropped i | codeDropped i =>
    cases h
    exact .quiet ⟨rfl, rfl, rfl, rfl⟩

/-- Tasks and mails are of rows, and a row is superseded only by a newer mailed one. -/
structure Sending (lower : String → String) (s : MagicLinks) : Prop where
  keyed : (s.rows.map (·.id)).Nodup
  task : ∀ (i : Nat) (t : SendTask), s.sends[i]? = some t → ∃ r ∈ s.rows, r.id = t.row ∧ r.email = t.email
  mailed : ∀ (i : Nat) (t : SendTask), s.sends[i]? = some t → t.phase = .mailed →
    ∃ m ∈ s.mails, m.row = t.row
  superseded : ∀ r ∈ s.rows, r.supersededAt ≠ none →
    ∃ k ∈ s.rows, lower k.email = lower r.email ∧ older r k = true ∧ ∃ m ∈ s.mails, m.row = k.id

theorem Sending.email_eq (h : Sending lower s) (hi : s.sends[i]? = some t) (hr : r ∈ s.rows)
    (hid : r.id = t.row) : r.email = t.email := by
  obtain ⟨r₀, hr₀, hid₀, hemail⟩ := h.task i t hi
  have : r = r₀ := List.inj_on_of_nodup_map h.keyed hr hr₀ (hid.trans hid₀.symm)
  rw [this, hemail]

theorem Sending.quiet (h : Sending lower s) (hq : Quiet s s') (hrows : Grown s.rows s'.rows) :
    Sending lower s' := by
  refine ⟨hrows.keyed h.keyed, fun i t hi => ?_, fun i t hi hph => ?_, fun r' hr' hsup => ?_⟩
  · obtain ⟨r, hr, hid, hemail⟩ := h.task i t (hq.sends ▸ hi)
    obtain ⟨r', hr', hg⟩ := hrows.kept hr
    exact ⟨r', hr', hg.id.trans hid, hg.email.trans hemail⟩
  · rw [hq.mails]
    exact h.mailed i t (hq.sends ▸ hi) hph
  · obtain ⟨r, hr, hview⟩ := hq.row hr'
    have hfields := hview
    simp only [view, SendView.mk.injEq] at hfields
    obtain ⟨k, hk, hemail, hold, m, hm, hmk⟩ := h.superseded r hr (hfields.2.2.2.2 ▸ hsup)
    obtain ⟨k', hk', hviewk⟩ := hq.row' hk
    have hfieldsk := hviewk
    simp only [view, SendView.mk.injEq] at hfieldsk
    refine ⟨k', hk', ?_, ?_, m, hq.mails ▸ hm, hmk.trans hfieldsk.1.symm⟩
    · rw [hfieldsk.2.1, hfields.2.1, hemail]
    · rw [older_congr hview hviewk, hold]

variable {sends : List SendTask} {sentAt : Option Time}

theorem Sending.insert (h : Sending lower s) (hnew : ∀ r ∈ s.rows, r.id ≠ new.id)
    (hsup : new.supersededAt = none)
    (htask : ∀ (i : Nat) (t : SendTask), sends[i]? = some t → s.sends[i]? = some t ∨
      t.row = new.id ∧ t.email = new.email ∧ t.phase = .queued) :
    Sending lower { s with rows := s.rows ++ [new], sends := sends } := by
  refine ⟨(Grown.insert hnew hsup).keyed h.keyed, fun i t hi => ?_, fun i t hi hph => ?_,
    fun r hr hr' => ?_⟩
  · rcases htask i t hi with hold | ⟨hrow, hemail, -⟩
    · obtain ⟨r, hr, hr'⟩ := h.task i t hold
      exact ⟨r, List.mem_append_left _ hr, hr'⟩
    · exact ⟨new, List.mem_append_right _ List.mem_cons_self, hrow.symm, hemail.symm⟩
  · rcases htask i t hi with hold | ⟨-, -, hqueued⟩
    · exact h.mailed i t hold hph
    · rw [hqueued] at hph
      cases hph
  · rcases List.mem_append.mp hr with hold | hmem
    · obtain ⟨k, hk, hk'⟩ := h.superseded r hold hr'
      exact ⟨k, List.mem_append_left _ hk, hk'⟩
    · rw [List.mem_singleton.mp hmem] at hr'
      exact absurd hsup hr'

theorem Sending.move (h : Sending lower s) (hi : s.sends[i]? = some t)
    (hrows : Grown s.rows s'.rows)
    (hview : ∀ r' ∈ s'.rows, ∃ r ∈ s.rows, r'.id = r.id ∧ r'.email = r.email ∧
      r'.createdAt = r.createdAt ∧ r'.supersededAt = r.supersededAt)
    (hsends : s'.sends = s.sends.set i { t with phase := ph })
    (hmails : ∃ more, s'.mails = s.mails ++ more)
    (hph : ph = .mailed → ∃ m ∈ s'.mails, m.row = t.row) : Sending lower s' := by
  obtain ⟨more, hmails⟩ := hmails
  refine ⟨hrows.keyed h.keyed, fun j u hj => ?_, fun j u hj hu => ?_, fun r' hr' hsup => ?_⟩
  · rw [hsends] at hj
    obtain ⟨r, hr, hid, hemail⟩ : ∃ r ∈ s.rows, r.id = u.row ∧ r.email = u.email := by
      rcases getElem?_set_cases hj with ⟨-, rfl⟩ | ⟨-, hj⟩
      · exact h.task i t hi
      · exact h.task j u hj
    obtain ⟨r', hr', hg⟩ := hrows.kept hr
    exact ⟨r', hr', hg.id.trans hid, hg.email.trans hemail⟩
  · rw [hsends] at hj
    rcases getElem?_set_cases hj with ⟨-, rfl⟩ | ⟨-, hj⟩
    · exact hph hu
    · obtain ⟨m, hm, hrow⟩ := h.mailed j u hj hu
      exact ⟨m, hmails ▸ List.mem_append_left _ hm, hrow⟩
  · obtain ⟨r, hr, hid, hemail, hcreated, hsame⟩ := hview r' hr'
    obtain ⟨k, hk, hkemail, hold, m, hm, hmk⟩ := h.superseded r hr (hsame ▸ hsup)
    obtain ⟨k', hk', hg⟩ := hrows.kept hk
    refine ⟨k', hk', ?_, ?_, m, hmails ▸ List.mem_append_left _ hm, hmk.trans hg.id.symm⟩
    · rw [hg.email, hemail, hkemail]
    · simp only [older, hid, hcreated, hg.id, hg.createdAt] at hold ⊢
      exact hold

theorem get_eq_some {id : Uuid} (h : s.get id = some k) :
    k ∈ s.rows ∧ k.id = id :=
  ⟨List.mem_of_find?_eq_some h, by simpa using List.find?_some h⟩

theorem Sending.supersedeOthers (h : Sending lower s) (hi : s.sends[i]? = some t)
    (hph : t.phase = .mailed) :
    Sending lower ((s.supersedeOthers lower t.email t.row).setPhase i t .done) := by
  have hgrown : Grown s.rows (s.supersedeOthers lower t.email t.row).rows :=
    .update fun _ => ⟨rfl, rfl, rfl, fun h => h, fun h => h⟩
  refine ⟨hgrown.keyed h.keyed, fun j u hj => ?_, fun j u hj hu => ?_, fun r' hr' hsup => ?_⟩
  · obtain ⟨r, hr, hid, hemail⟩ : ∃ r ∈ s.rows, r.id = u.row ∧ r.email = u.email := by
      rcases getElem?_set_cases hj with ⟨-, rfl⟩ | ⟨-, hj⟩
      · exact h.task i t hi
      · exact h.task j u hj
    obtain ⟨r', hr', hg⟩ := hgrown.kept hr
    exact ⟨r', hr', hg.id.trans hid, hg.email.trans hemail⟩
  · rcases getElem?_set_cases hj with ⟨-, rfl⟩ | ⟨-, hj⟩
    · cases hu
    · exact h.mailed j u hj hu
  · -- the row was superseded before, or is now, for the task's own mailed row
    obtain ⟨r, hr, k, hk, hkemail, hold, m, hm, hmk, hid, hemail, hcreated⟩ :
        ∃ r ∈ s.rows, ∃ k ∈ s.rows, lower k.email = lower r.email ∧ older r k = true ∧
          ∃ m ∈ s.mails, m.row = k.id ∧ r'.id = r.id ∧ r'.email = r.email ∧
            r'.createdAt = r.createdAt := by
      rcases Table.mem_update hr' with hsame | ⟨r, hr, hcond, rfl⟩
      · obtain ⟨k, hk, hkemail, hold, m, hm, hmk⟩ := h.superseded r' hsame hsup
        exact ⟨r', hsame, k, hk, hkemail, hold, m, hm, hmk, rfl, rfl, rfl⟩
      · simp only [superseding, Bool.and_eq_true, beq_iff_eq] at hcond
        obtain ⟨k, hget, hold⟩ := Option.any_eq_true _ _ |>.mp hcond.2
        obtain ⟨hk, hkid⟩ := get_eq_some hget
        obtain ⟨m, hm, hmrow⟩ := h.mailed i t hi hph
        refine ⟨r, hr, k, hk, ?_, hold, m, hm, hmrow.trans hkid.symm, rfl, rfl, rfl⟩
        rw [h.email_eq hi hk hkid, hcond.1.1.1.1.1]
    obtain ⟨k', hk', hg⟩ := hgrown.kept hk
    refine ⟨k', hk', ?_, ?_, m, hm, hmk.trans hg.id.symm⟩
    · rw [hg.email, hemail, hkemail]
    · simp only [older, hid, hcreated, hg.id, hg.createdAt] at hold ⊢
      exact hold

theorem rows_of_stamp {id : Uuid} (h : r' ∈ (s.stamp id sentAt).rows) :
    (r' ∈ s.rows ∧ r'.id ≠ id) ∨ ∃ r ∈ s.rows, r.id = id ∧ r' = { r with sentAt } := by
  obtain ⟨r, hr, rfl⟩ := List.mem_map.mp h
  by_cases hid : r.id = id
  · exact .inr ⟨r, hr, hid, by simp [hid]⟩
  · refine .inl ⟨by simpa [hid] using hr, ?_⟩
    simp [hid]

theorem sending_stepSend (h : Sending lower s) {e : SendEvent} (hi : s.sends[i]? = some t)
    (hstep : stepSend cfg lower toLowercase s i t e t.phase = some s') : Sending lower s' := by
  have hidle : ∀ {u : MagicLinks} {ph : SendPhase}, u.rows = s.rows → u.sends = s.sends →
      u.mails = s.mails → ph ≠ .mailed → Sending lower (u.setPhase i t ph) := by
    intro u ph hrows hsends hmails hph
    refine h.move hi (hrows ▸ .refl _) ?_ (by simp [setPhase, hsends])
      ⟨[], by simp [setPhase, hmails]⟩ fun hm => absurd hm hph
    intro r' hr'
    exact ⟨r', hrows ▸ hr', rfl, rfl, rfl, rfl⟩
  have hstamp : ∀ {sentAt : Option Time} {ph : SendPhase}, ph ≠ .mailed →
      Sending lower ((s.stamp t.row sentAt).setPhase i t ph) := by
    intro sentAt ph hph
    refine h.move hi (rows_stamp s t.row sentAt) ?_ rfl ⟨[], by simp [setPhase, stamp, updateRow]⟩
      fun hm => absurd hm hph
    intro r' hr'
    rcases rows_of_stamp hr' with ⟨hold, -⟩ | ⟨r, hr, -, rfl⟩
    · exact ⟨r', hold, rfl, rfl, rfl, rfl⟩
    · exact ⟨r, hr, rfl, rfl, rfl, rfl⟩
  generalize hph : t.phase = ph at hstep
  unfold stepSend at hstep
  split at hstep <;> (try split at hstep) <;> cases hstep
  all_goals first
    | exact hidle rfl rfl rfl nofun
    | exact hstamp nofun
    | skip
  · refine h.move hi (.refl _) (fun r' hr' => ⟨r', hr', rfl, rfl, rfl, rfl⟩) rfl ⟨_, rfl⟩ fun _ => ?_
    exact ⟨_, List.mem_append_right _ List.mem_cons_self, rfl⟩
  · exact h.supersedeOthers hi hph

theorem sending_step (h : Sending lower s) (hstep : step cfg hs lower toLowercase s e = some s') :
    Sending lower s' := by
  cases sendStep_of_step hstep with
  | quiet hq => exact h.quiet hq (rows_step hstep)
  | requested new hnew heq =>
    subst heq
    refine h.insert hnew rfl fun i t hi => ?_
    rcases getElem?_snoc_cases hi with hold | ⟨-, rfl⟩
    · exact .inl hold
    · exact .inr ⟨rfl, rfl, rfl⟩
  | printed new hnew heq =>
    subst heq
    exact h.insert hnew rfl fun i t hi => .inl hi
  | task i t e hi ht => exact sending_stepSend h hi ht

/-! ## The throttle -/

/-- The column compares addresses by `lower`, which is the database's, the lock by its key. -/
def address (lower toLowercase : String → String) (email : String) : String × String :=
  (lower email, magicLinkSendLockKey toLowercase email)

variable {one : String → String × String}

/-- The row with this id, when there is one, has this stamp. -/
def StampIs (s : MagicLinks) (id : Uuid) (P : Option Time → Prop) : Prop :=
  ∀ r ∈ s.rows, r.id = id → P r.sentAt

/-- No stamp of the address is inside the window before `began`. -/
def Clear (cfg : MagicLinkConfig) (one : String → String × String) (s : MagicLinks) (email : String)
    (began : Time) : Prop :=
  ∀ r ∈ s.rows, one r.email = one email → ∀ x, r.sentAt = some x → x + window cfg ≤ began

/-- What the phase of a task says about its row, while no statement fails. -/
def PhaseOk (cfg : MagicLinkConfig) (one : String → String × String) (s : MagicLinks) (t : SendTask) :
    Prop :=
  match t.phase with
  | .queued | .claiming _ | .locked _ => s.StampIs t.row (· = none)
  | .stamped began => s.StampIs t.row (· = none) ∧ s.Clear cfg one t.email began
  | .restamping => False
  | .sending => s.StampIs t.row (· ≠ none) ∧ ∀ m ∈ s.mails, m.row ≠ t.row
  | .releasing => ∀ m ∈ s.mails, m.row ≠ t.row
  | .mailed | .done => True

/-- Each mail carries the stamp of its row, and stamps of one address are the window apart. -/
structure Spaced (cfg : MagicLinkConfig) (one : String → String × String) (s : MagicLinks) : Prop where
  mails : ∀ m ∈ s.mails, m.stamp ≠ none ∧
    ∃ r ∈ s.rows, r.id = m.row ∧ r.email = m.email ∧ r.sentAt = m.stamp
  once : (s.mails.map (·.row)).Nodup
  apart : ∀ r ∈ s.rows, ∀ r' ∈ s.rows, r.id ≠ r'.id → one r.email = one r'.email →
    ∀ x x', r.sentAt = some x → r'.sentAt = some x' →
      x + window cfg ≤ x' ∨ x' + window cfg ≤ x

/-- The throttle's invariant: one task a row and one lock holder an address. -/
structure Throttled (cfg : MagicLinkConfig) (one : String → String × String) (s : MagicLinks) : Prop where
  distinct : ∀ (i j : Nat) (t u : SendTask), s.sends[i]? = some t → s.sends[j]? = some u →
    t.row = u.row → i = j
  exclusive : ∀ (i j : Nat) (t u : SendTask), s.sends[i]? = some t → s.sends[j]? = some u →
    t.holdsLock = true → u.holdsLock = true → one t.email = one u.email → i = j
  phase : ∀ (i : Nat) (t : SendTask), s.sends[i]? = some t → s.PhaseOk cfg one t
  spaced : s.Spaced cfg one

/-- The columns the throttle reads. -/
def stampView (r : MagicLinkToken) : Uuid × String × Option Time := (r.id, r.email, r.sentAt)

theorem mem_of_stampView (hv : s'.rows.map stampView = s.rows.map stampView) (hr : r' ∈ s'.rows) :
    ∃ r ∈ s.rows, r'.id = r.id ∧ r'.email = r.email ∧ r'.sentAt = r.sentAt := by
  have hmem : stampView r' ∈ s.rows.map stampView := hv ▸ List.mem_map_of_mem hr
  obtain ⟨r, hr, heq⟩ := List.mem_map.mp hmem
  simp only [stampView, Prod.mk.injEq] at heq
  exact ⟨r, hr, heq.1.symm, heq.2.1.symm, heq.2.2.symm⟩

theorem StampIs.same {id : Uuid} {P : Option Time → Prop} (h : s.StampIs id P)
    (hv : s'.rows.map stampView = s.rows.map stampView) : s'.StampIs id P := by
  intro r' hr' hid
  obtain ⟨r, hr, hid', -, hsent⟩ := mem_of_stampView hv hr'
  exact hsent ▸ h r hr (hid'.symm.trans hid)

variable {email : String} {began : Time}

theorem Clear.same (h : s.Clear cfg one email began)
    (hv : s'.rows.map stampView = s.rows.map stampView) : s'.Clear cfg one email began := by
  intro r' hr' hemail x hx
  obtain ⟨r, hr, -, hemail', hsent⟩ := mem_of_stampView hv hr'
  exact h r hr (hemail' ▸ hemail) x (hsent ▸ hx)

theorem PhaseOk.same (h : s.PhaseOk cfg one t)
    (hv : s'.rows.map stampView = s.rows.map stampView) (hm : s'.mails = s.mails) :
    s'.PhaseOk cfg one t := by
  unfold PhaseOk at h ⊢
  split at h
  · exact h.same hv
  · exact h.same hv
  · exact h.same hv
  · exact ⟨h.1.same hv, h.2.same hv⟩
  · exact h
  · exact ⟨h.1.same hv, hm ▸ h.2⟩
  · exact hm ▸ h
  · trivial
  · trivial


theorem Spaced.same (h : Spaced cfg one s)
    (hv : s'.rows.map stampView = s.rows.map stampView) (hm : s'.mails = s.mails) :
    Spaced cfg one s' := by
  refine ⟨fun m hmem => ?_, hm ▸ h.once, fun r hr r' hr' hid hemail x x' hx hx' => ?_⟩
  · obtain ⟨hstamp, r, hr, hid, hemail, hsent⟩ := h.mails m (hm ▸ hmem)
    have hmem' : stampView r ∈ s'.rows.map stampView := hv ▸ List.mem_map_of_mem hr
    obtain ⟨r', hr', heq⟩ := List.mem_map.mp hmem'
    simp only [stampView, Prod.mk.injEq] at heq
    exact ⟨hstamp, r', hr', heq.1.trans hid, heq.2.1.trans hemail, heq.2.2.trans hsent⟩
  · obtain ⟨r₀, hr₀, hid₀, hemail₀, hsent₀⟩ := mem_of_stampView hv hr
    obtain ⟨r₁, hr₁, hid₁, hemail₁, hsent₁⟩ := mem_of_stampView hv hr'
    refine h.apart r₀ hr₀ r₁ hr₁ ?_ ?_ x x' (hsent₀ ▸ hx) (hsent₁ ▸ hx')
    · rwa [← hid₀, ← hid₁]
    · rwa [← hemail₀, ← hemail₁]

theorem Throttled.quiet (h : Throttled cfg one s) (hq : Quiet s s') :
    Throttled cfg one s' := by
  have hv : s'.rows.map stampView = s.rows.map stampView := by
    have hmap : ∀ l : List MagicLinkToken,
        l.map stampView = (l.map view).map fun v => (v.id, v.email, v.sentAt) := by
      intro l
      rw [List.map_map]
      rfl
    rw [hmap, hmap, hq.rows]
  exact ⟨hq.sends ▸ h.distinct, hq.sends ▸ h.exclusive,
    fun i t hi => (h.phase i t (hq.sends ▸ hi)).same hv hq.mails, h.spaced.same hv hq.mails⟩

theorem Throttled.advance (h : Throttled cfg one s) (hi : s.sends[i]? = some t)
    (hsends : s'.sends = s.sends.set i { t with phase := ph })
    (hlock : ({ t with phase := ph } : SendTask).holdsLock = true → t.holdsLock = true ∨
      ∀ (k : Nat) (v : SendTask), s.sends[k]? = some v → v.holdsLock = true →
        one v.email ≠ one t.email) (hphase : s'.PhaseOk cfg one { t with phase := ph })
    (hothers : ∀ (j : Nat) (u : SendTask), j ≠ i → s.sends[j]? = some u →
      s.PhaseOk cfg one u → s'.PhaseOk cfg one u) (hspaced : s'.Spaced cfg one) :
    Throttled cfg one s' := by
  -- the mover holds its lock against every other task
  have hmine : ∀ (j : Nat) (u : SendTask), j ≠ i → s.sends[j]? = some u →
      ({ t with phase := ph } : SendTask).holdsLock = true → u.holdsLock = true →
      one t.email ≠ one u.email := by
    intro j u hij hj ht hu heq
    rcases hlock ht with hheld | hfree
    · exact hij (h.exclusive j i u t hj hi hu hheld heq.symm)
    · exact hfree j u hj hu heq.symm
  refine ⟨fun j k u v hj hk hrow => ?_, fun j k u v hj hk hu hv hemail => ?_, fun j u hj => ?_,
    hspaced⟩
  · rw [hsends] at hj hk
    rcases getElem?_set_cases hj with ⟨hij, rfl⟩ | ⟨hij, hj'⟩ <;>
      rcases getElem?_set_cases hk with ⟨hik, rfl⟩ | ⟨hik, hk'⟩
    · exact hij.trans hik.symm
    · exact hij.trans (h.distinct i k t v hi hk' hrow)
    · exact (h.distinct j i u t hj' hi hrow).trans hik.symm
    · exact h.distinct j k u v hj' hk' hrow
  · rw [hsends] at hj hk
    rcases getElem?_set_cases hj with ⟨hij, rfl⟩ | ⟨hij, hj'⟩ <;>
      rcases getElem?_set_cases hk with ⟨hik, rfl⟩ | ⟨hik, hk'⟩
    · exact hij.trans hik.symm
    · exact absurd hemail (hmine k v hik hk' hu hv)
    · exact absurd hemail.symm (hmine j u hij hj' hv hu)
    · exact h.exclusive j k u v hj' hk' hu hv hemail
  · rw [hsends] at hj
    rcases getElem?_set_cases hj with ⟨-, rfl⟩ | ⟨hij, hj'⟩
    · exact hphase
    · exact hothers j u hij hj' (h.phase j u hj')

theorem Throttled.insert (h : Throttled cfg one s) (hsending : Sending lower s)
    (hnew : ∀ r ∈ s.rows, r.id ≠ new.id) (hsent : new.sentAt = none) (htask : sends = s.sends ∨
      sends = s.sends ++ [{ row := new.id, email := new.email, phase := .queued }]) :
    Throttled cfg one { s with rows := s.rows ++ [new], sends := sends } := by
  have hcases : ∀ (i : Nat) (t : SendTask), sends[i]? = some t → s.sends[i]? = some t ∨
      (i = s.sends.length ∧ t = { row := new.id, email := new.email, phase := .queued }) := by
    intro i t hi
    rcases htask with rfl | rfl
    · exact .inl hi
    · exact getElem?_snoc_cases hi
  have hrow : ∀ (i : Nat) (t : SendTask), s.sends[i]? = some t → t.row ≠ new.id := by
    intro i t hi heq
    obtain ⟨r, hr, hid, -⟩ := hsending.task i t hi
    exact hnew r hr (hid.trans heq)
  have hstamp : ∀ (id : Uuid) (P : Option Time → Prop), id ≠ new.id → s.StampIs id P →
      StampIs { s with rows := s.rows ++ [new], sends := sends } id P := by
    intro id P hid h r hr hrid
    rcases List.mem_append.mp hr with hr | hr
    · exact h r hr hrid
    · exact absurd (hrid.symm.trans (congrArg _ (List.mem_singleton.mp hr))) hid
  have hclear : ∀ (email : String) (began : Time), s.Clear cfg one email began →
      Clear cfg one { s with rows := s.rows ++ [new], sends := sends } email began := by
    intro email began h r hr hemail x hx
    rcases List.mem_append.mp hr with hr | hr
    · exact h r hr hemail x hx
    · rw [List.mem_singleton.mp hr, hsent] at hx
      cases hx
  refine ⟨fun i j t u hi hj heq => ?_, fun i j t u hi hj ht hu hemail => ?_, fun i t hi => ?_,
    ⟨fun m hm => ?_, h.spaced.once, fun r hr r' hr' hid hemail x x' hx hx' => ?_⟩⟩
  · rcases hcases i t hi with hi' | ⟨hi', rfl⟩ <;> rcases hcases j u hj with hj' | ⟨hj', rfl⟩
    · exact h.distinct i j t u hi' hj' heq
    · exact absurd heq (hrow i t hi')
    · exact absurd heq.symm (hrow j u hj')
    · exact hi'.trans hj'.symm
  · rcases hcases i t hi with hi | ⟨-, rfl⟩
    · rcases hcases j u hj with hj | ⟨-, rfl⟩
      · exact h.exclusive i j t u hi hj ht hu hemail
      · cases hu
    · cases ht
  · rcases hcases i t hi with hi | ⟨-, rfl⟩
    · have hne := hrow i t hi
      have hok := h.phase i t hi
      unfold PhaseOk at hok ⊢
      split at hok
      · exact hstamp _ _ hne hok
      · exact hstamp _ _ hne hok
      · exact hstamp _ _ hne hok
      · exact ⟨hstamp _ _ hne hok.1, hclear _ _ hok.2⟩
      · exact hok
      · exact ⟨hstamp _ _ hne hok.1, hok.2⟩
      · exact hok
      · trivial
      · trivial
    · intro r hr hid
      rcases List.mem_append.mp hr with hr | hr
      · exact absurd hid (hnew r hr)
      · rw [List.mem_singleton.mp hr, hsent]
  · obtain ⟨hm, r, hr, hr'⟩ := h.spaced.mails m hm
    exact ⟨hm, r, List.mem_append_left _ hr, hr'⟩
  · rcases List.mem_append.mp hr with hr | hr
    · rcases List.mem_append.mp hr' with hr' | hr'
      · exact h.spaced.apart r hr r' hr' hid hemail x x' hx hx'
      · rw [List.mem_singleton.mp hr', hsent] at hx'
        cases hx'
    · rw [List.mem_singleton.mp hr, hsent] at hx
      cases hx

theorem PhaseOk.stamp {u : SendTask} (h : s.PhaseOk cfg one u) (hrow : u.row ≠ t.row)
    (hlock : sentAt = none ∨
      (u.holdsLock = true → ∀ r ∈ s.rows, r.id = t.row → one r.email ≠ one u.email)) :
    (s.stamp t.row sentAt).PhaseOk cfg one u := by
  have hstamp : ∀ {P : Option Time → Prop}, s.StampIs u.row P →
      (s.stamp t.row sentAt).StampIs u.row P := by
    intro P h r' hr' hid
    rcases rows_of_stamp hr' with ⟨hold, -⟩ | ⟨r, -, hrid, rfl⟩
    · exact h r' hold hid
    · exact absurd (hid.symm.trans hrid) hrow
  unfold PhaseOk at h ⊢
  split at h
  · exact hstamp h
  · exact hstamp h
  · exact hstamp h
  · next began hph =>
    refine ⟨hstamp h.1, fun r' hr' hemail x hx => ?_⟩
    rcases rows_of_stamp hr' with ⟨hold, -⟩ | ⟨r, hr, hrid, rfl⟩
    · exact h.2 r' hold hemail x hx
    · rcases hlock with rfl | hlock
      · cases hx
      · exact absurd hemail (hlock (by simp [SendTask.holdsLock, hph]) r hr hrid)
  · exact h
  · exact ⟨hstamp h.1, h.2⟩
  · exact h
  · trivial
  · trivial

theorem Spaced.stamp (h : Spaced cfg one s) {id : Uuid} (hmails : ∀ m ∈ s.mails, m.row ≠ id)
    (hgap : ∀ x, sentAt = some x → ∀ r ∈ s.rows, r.id = id →
      s.Clear cfg one r.email x) : Spaced cfg one (s.stamp id sentAt) := by
  refine ⟨fun m hm => ?_, h.once, fun r hr r' hr' hid hemail x x' hx hx' => ?_⟩
  · obtain ⟨hstamp, r, hr, hrow, hrest⟩ := h.mails m hm
    have hne : r.id ≠ id := fun heq => hmails m hm (hrow.symm.trans heq)
    exact ⟨hstamp, r, List.mem_map.mpr ⟨r, hr, by simp [hne]⟩, hrow, hrest⟩
  · rcases rows_of_stamp hr with ⟨hr, hne⟩ | ⟨r₀, hr₀, hid₀, rfl⟩ <;>
      rcases rows_of_stamp hr' with ⟨hr', hne'⟩ | ⟨r₁, hr₁, hid₁, rfl⟩
    · exact h.apart r hr r' hr' hid hemail x x' hx hx'
    · exact .inl (hgap x' hx' r₁ hr₁ hid₁ r hr hemail x hx)
    · exact .inr (hgap x hx r₀ hr₀ hid₀ r' hr' hemail.symm x' hx')
    · exact absurd (hid₀.trans hid₁.symm) hid

theorem Throttled.no_mail (h : Throttled cfg one s) {id : Uuid}
    (hstamp : s.StampIs id (· = none)) : ∀ m ∈ s.mails, m.row ≠ id := by
  intro m hm heq
  obtain ⟨hsent, r, hr, hrow, -, hr'⟩ := h.spaced.mails m hm
  exact hsent (hr'.symm.trans (hstamp r hr (hrow.trans heq)))

theorem clear_of_affects {id : Uuid} (h : s.affects id (s.claimable cfg lower email began) = true) :
    s.Clear cfg (address lower toLowercase) email began := by
  obtain ⟨r₀, -, hcond⟩ := List.any_eq_true.mp h
  simp only [claimable, Bool.and_eq_true, Bool.not_eq_true', List.any_eq_false, beq_iff_eq,
    not_and] at hcond
  intro r hr hemail x hx
  have hnot := hcond.2.2 r hr (congrArg Prod.fst hemail)
  rw [hx, Option.any_some, decide_eq_true_eq] at hnot
  exact Int.add_le_of_le_sub_right (Int.not_lt.mp hnot)

theorem stampIs_stamp (s : MagicLinks) (id : Uuid) (sentAt : Option Time) :
    (s.stamp id sentAt).StampIs id (· = sentAt) := by
  intro r' hr' hid
  rcases rows_of_stamp hr' with ⟨-, hne⟩ | ⟨r, -, -, rfl⟩
  · exact absurd hid hne
  · rfl

theorem Throttled.commit (h : Throttled cfg one s) (hsending : Sending lower s)
    (hi : s.sends[i]? = some t) (hph : t.phase = .stamped began) :
    Throttled cfg one ((s.stamp t.row (some began)).setPhase i t .sending) := by
  have hok := h.phase i t hi
  simp only [PhaseOk, hph] at hok
  have hnone := h.no_mail hok.1
  have hheld : t.holdsLock = true := by simp [SendTask.holdsLock, hph]
  refine h.advance hi rfl nofun ⟨?_, hnone⟩ (fun j u hji hj hu => ?_) ?_
  · intro r hr hid
    rw [stampIs_stamp s t.row (some began) r hr hid]
    exact Option.some_ne_none began
  · refine PhaseOk.same (hu.stamp (fun heq => hji (h.distinct j i u t hj hi heq)) (.inr ?_)) rfl rfl
    intro hlock r hr hid heq
    rw [hsending.email_eq hi hr hid] at heq
    exact hji (h.exclusive j i u t hj hi hlock hheld heq.symm)
  · refine Spaced.same (h.spaced.stamp hnone fun x hx r hr hid => ?_) rfl rfl
    cases hx
    rw [hsending.email_eq hi hr hid]
    exact hok.2

theorem Throttled.sent (h : Throttled cfg one s) (hsending : Sending lower s)
    (hi : s.sends[i]? = some t) (hph : t.phase = .sending) :
    Throttled cfg one ((s.addMail t).setPhase i t .mailed) := by
  have hok := h.phase i t hi
  simp only [PhaseOk, hph] at hok
  refine h.advance hi rfl nofun trivial (fun j u hji hj hu => ?_) ⟨fun m hm => ?_, ?_,
    h.spaced.apart⟩
  · -- the new mail is of no other task's row
    have hmails : ∀ P : Prop, (P ∧ ∀ m ∈ s.mails, m.row ≠ u.row) →
        P ∧ ∀ m ∈ ((s.addMail t).setPhase i t .mailed).mails, m.row ≠ u.row := by
      rintro P ⟨hP, hall⟩
      refine ⟨hP, fun m hm => ?_⟩
      rcases List.mem_append.mp hm with hm | hm
      · exact hall m hm
      · rw [List.mem_singleton.mp hm]
        exact fun heq => hji (h.distinct j i u t hj hi heq.symm)
    unfold PhaseOk at hu ⊢
    split at hu
    · exact hu
    · exact hu
    · exact hu
    · exact hu
    · exact hu
    · exact hmails _ hu
    · exact (hmails True ⟨trivial, hu⟩).2
    · trivial
    · trivial
  · rcases List.mem_append.mp hm with hm | hm
    · exact h.spaced.mails m hm
    · obtain ⟨r, hr, hid, hemail⟩ := hsending.task i t hi
      have hget : s.get t.row = some r := by
        cases heq : s.get t.row with
        | none => exact absurd (List.find?_eq_none.mp heq r hr) (by simp [hid])
        | some k =>
          obtain ⟨hk, hkid⟩ := get_eq_some heq
          rw [List.inj_on_of_nodup_map hsending.keyed hk hr (hkid.trans hid.symm)]
      rw [List.mem_singleton.mp hm, hget]
      exact ⟨hok.1 r hr hid, r, hr, hid, hemail, rfl⟩
  · change ((s.mails ++ _).map (·.row)).Nodup
    rw [List.map_append, List.nodup_append']
    refine ⟨h.spaced.once, List.nodup_singleton _, fun id hid hid' => ?_⟩
    obtain ⟨m, hm, rfl⟩ := List.mem_map.mp hid
    exact hok.2 m hm (List.mem_singleton.mp hid')

theorem storageErrors_step (h : step cfg hs lower toLowercase s e = some s') :
    s.storageErrors ≤ s'.storageErrors := by
  cases sendStep_of_step h with
  | quiet hq => exact hq.storageErrors.ge
  | requested new hnew heq | printed new hnew heq =>
    subst heq
    exact le_refl _
  | task i t e hi ht =>
    unfold stepSend at ht
    split at ht <;> (try split at ht) <;> cases ht <;>
      first | exact le_refl _ | exact Nat.le_succ _

theorem throttled_stepSend (h : Throttled cfg (address lower toLowercase) s) (hsending : Sending lower s)
    (hrate : 0 < cfg.rateLimitSeconds) {e : SendEvent} (hi : s.sends[i]? = some t)
    (hstep : stepSend cfg lower toLowercase s i t e t.phase = some s') (herrors : s'.storageErrors = 0) :
    Throttled cfg (address lower toLowercase) s' := by
  have hok := h.phase i t hi
  -- a move that leaves the stamps and the mails alone
  have hidle : ∀ {rows : List MagicLinkToken} {ph : SendPhase},
      rows.map stampView = s.rows.map stampView →
      (({ t with phase := ph } : SendTask).holdsLock = true → t.holdsLock = true ∨
        ∀ (k : Nat) (v : SendTask), s.sends[k]? = some v → v.holdsLock = true →
          address lower toLowercase v.email ≠ address lower toLowercase t.email) →
      s.PhaseOk cfg (address lower toLowercase) { t with phase := ph } →
      Throttled cfg (address lower toLowercase) (setPhase { s with rows := rows } i t ph) := by
    intro rows ph hv hlock hphase
    exact h.advance hi rfl hlock (hphase.same hv rfl) (fun j u _ _ hu => hu.same hv rfl)
      (h.spaced.same hv rfl)
  generalize hph : t.phase = ph at hstep
  simp only [PhaseOk, hph] at hok
  unfold stepSend at hstep
  split at hstep
  · cases hstep
    exact hidle rfl nofun trivial
  · rw [if_neg (Nat.ne_of_gt hrate)] at hstep
    cases hstep
    exact hidle rfl nofun hok
  · next began =>
    split at hstep
    · cases hstep
    · next hfree =>
      cases hstep
      simp only [List.any_eq_true, Bool.and_eq_true, beq_iff_eq, not_exists, not_and] at hfree
      exact hidle rfl (fun _ => .inr fun k v hk hv heq =>
        hfree v (List.mem_of_getElem? hk) (congrArg Prod.snd heq) hv) hok
  · next began =>
    split at hstep
    · next haffects =>
      cases hstep
      exact hidle rfl (fun _ => .inl (by simp [SendTask.holdsLock, hph]))
        ⟨hok, clear_of_affects haffects⟩
    · cases hstep
      exact hidle rfl nofun trivial
  · cases hstep
    exact h.commit hsending hi hph
  iterate 4
    · cases hstep
      exact absurd herrors (Nat.succ_ne_zero _)
  · exact hok.elim
  · cases hstep
    exact absurd herrors (Nat.succ_ne_zero _)
  · cases hstep
    exact h.sent hsending hi hph
  · cases hstep
    exact hidle rfl nofun hok.2
  · cases hstep
    refine h.advance hi rfl nofun trivial (fun j u hji hj hu => ?_) ?_
    · exact PhaseOk.same (hu.stamp (fun heq => hji (h.distinct j i u t hj hi heq)) (.inl rfl))
        rfl rfl
    · exact Spaced.same (h.spaced.stamp hok fun x hx => by cases hx) rfl rfl
  · cases hstep
    exact absurd herrors (Nat.succ_ne_zero _)
  · cases hstep
    have hv : (s.supersedeOthers lower t.email t.row).rows.map stampView = s.rows.map stampView :=
      Table.map_update (f := fun r => { r with supersededAt := some s.now }) (fun _ => rfl) s.rows
    exact hidle hv nofun trivial
  · cases hstep
    exact absurd herrors (Nat.succ_ne_zero _)
  · cases hstep
    exact hidle rfl nofun trivial
  · cases hstep

theorem throttled_step (h : Throttled cfg (address lower toLowercase) s) (hsending : Sending lower s)
    (hrate : 0 < cfg.rateLimitSeconds) (hstep : step cfg hs lower toLowercase s e = some s')
    (herrors : s'.storageErrors = 0) : Throttled cfg (address lower toLowercase) s' := by
  cases sendStep_of_step hstep with
  | quiet hq => exact h.quiet hq
  | requested new hnew heq =>
    subst heq
    exact h.insert hsending hnew rfl (.inr rfl)
  | printed new hnew heq =>
    subst heq
    exact h.insert hsending hnew rfl (.inl rfl)
  | task i t e hi ht => exact throttled_stepSend h hsending hrate hi ht herrors

/-! ## The law -/

/-- A magic link signs in once, is guessed at once, and the reader keeps the newest. -/
structure Lawful (cfg : MagicLinkConfig) (lower toLowercase : String → String) (s : MagicLinks) : Prop where
  once : (s.signIns.map (·.row)).Nodup
  oneGuess : (s.compared.map (·.row)).Nodup
  /-- Two mails of one address, to the column and to the lock both, are of two rows whose
  stamps are the window apart. -/
  apart : 0 < cfg.rateLimitSeconds → s.storageErrors = 0 →
    (s.mails.map (·.row)).Nodup ∧
    ∀ m ∈ s.mails, ∀ m' ∈ s.mails, m.row ≠ m'.row → lower m.email = lower m'.email →
      toLowercase m.email = toLowercase m'.email → ∃ x x', m.stamp = some x ∧ m'.stamp = some x' ∧
        (x + window cfg ≤ x' ∨ x' + window cfg ≤ x)
  /-- A row is superseded only if a newer one of its address was mailed. -/
  newest : ∀ r ∈ s.rows, r.supersededAt ≠ none →
    ∃ k ∈ s.rows, lower k.email = lower r.email ∧ older r k = true ∧ ∃ m ∈ s.mails, m.row = k.id

/-- What every step keeps. -/
structure Inv (cfg : MagicLinkConfig) (lower toLowercase : String → String) (s : MagicLinks) : Prop where
  signIns : Marks (·.usedAt) s.rows (s.signIns.map (·.row))
  compared : Marks (·.codeSpentAt) s.rows (s.compared.map (·.row))
  sending : s.Sending lower
  throttled : 0 < cfg.rateLimitSeconds → s.storageErrors = 0 → s.Throttled cfg (address lower toLowercase)

theorem inv_start (cfg : MagicLinkConfig) (lower toLowercase : String → String) (now : Time) :
    (start now).Inv cfg lower toLowercase where
  signIns := by constructor <;> simp [start]
  compared := by constructor <;> simp [start]
  sending := by constructor <;> simp [start]
  throttled _ _ := ⟨by simp [start], by simp [start], by simp [start],
    by constructor <;> simp [start]⟩

theorem inv_step (h : Inv cfg lower toLowercase s) (hstep : step cfg hs lower toLowercase s e = some s') :
    Inv cfg lower toLowercase s' where
  signIns := h.signIns.step (rows_step hstep) (fun _ _ hg => hg.usedAt) (signIns_step hstep)
  compared :=
    h.compared.step (rows_step hstep) (fun _ _ hg => hg.codeSpentAt) (compared_step hstep)
  sending := sending_step h.sending hstep
  throttled hrate herrors :=
    throttled_step (h.throttled hrate (Nat.eq_zero_of_le_zero
      (herrors ▸ storageErrors_step hstep))) h.sending hrate hstep herrors

theorem Inv.lawful (h : Inv cfg lower toLowercase s) : Lawful cfg lower toLowercase s where
  once := h.signIns.nodup
  oneGuess := h.compared.nodup
  apart := by
    intro hrate herrors
    have hspaced := (h.throttled hrate herrors).spaced
    refine ⟨hspaced.once, fun m hm m' hm' hrow hemail hlower => ?_⟩
    have hone : address lower toLowercase m.email = address lower toLowercase m'.email := by
      rw [address, address, magicLinkSendLockKey, magicLinkSendLockKey, hemail, hlower]
    obtain ⟨hx, r, hr, hid, hr'⟩ := hspaced.mails m hm
    obtain ⟨hx', k, hk, hidk, hk'⟩ := hspaced.mails m' hm'
    obtain ⟨x, hx⟩ := Option.ne_none_iff_exists'.mp hx
    obtain ⟨x', hx'⟩ := Option.ne_none_iff_exists'.mp hx'
    refine ⟨x, x', hx, hx', hspaced.apart r hr k hk ?_ ?_ x x' (hr'.2.trans hx) (hk'.2.trans hx')⟩
    · rwa [hid, hidk]
    · rwa [hr'.1, hk'.1]
  newest := h.sending.superseded

/-- **Each row signs in once and takes one guess, stamps of two mails of an address are the
window apart, and the newest mailed row of an address is not superseded**, along every run. -/
theorem magic_link_law {now : Time}
    (h : Run (step cfg hs lower toLowercase) (fun _ _ => True) (start now) s) : Lawful cfg lower toLowercase s :=
  (h.invariant (inv_start cfg lower toLowercase now) fun _ _ _ hinv _ hstep => inv_step hinv hstep).lawful

/-! ## Two links of one address -/

/-- Hashes that verify their own input. -/
def plainHashes : Hashes where
  hash _ raw := raw
  verify raw hashed := raw == hashed
  sha256Hex raw := raw

def newLink (id : Uuid) (token nonce : String) (now : Time) : NewMagicLink where
  id := id
  email := "reader@example.com"
  redirectAfter := none
  invitationId := none
  nonce := some nonce
  token := token
  tokenSalt := 0
  code := [1, 2, 3, 4, 5, 6]
  codeSalt := 0
  createdAt := now
  appNow := now

/-- Task `i` claims its row and mails it. -/
def mailing (i : Nat) : List MagicLinkEvent :=
  [.send i .claim, .send i .lock, .send i .update, .send i .commit, .send i (.sent true)]

/-- Two links, the window apart; the second is redeemed by its code. -/
theorem magic_link_law_redeemed :
    ∃ s, Run (step ⟨15, 60⟩ plainHashes id id) (fun _ _ => True) (start 0) s ∧
      s.mails.length = 2 ∧ s.compared.length = 1 ∧ s.signIns = [⟨2, .code⟩] ∧
      Lawful ⟨15, 60⟩ id id s := by
  let events : List MagicLinkEvent :=
    (.requested (newLink 1 "first" "n1" 0) :: mailing 0 : List MagicLinkEvent) ++
    ([.send 0 (.supersedeOthers true), .tick (seconds 60),
      .requested (newLink 2 "second" "n2" (seconds 60))] : List MagicLinkEvent) ++ mailing 1 ++
    ([.send 1 (.supersedeOthers true), .consume "second", .consumeCode "n2" "123-456".toList,
      .spend 0, .redeem 0, .markUsed 0] : List MagicLinkEvent)
  obtain ⟨s, hrun, hs⟩ : ∃ s, Run (step ⟨15, 60⟩ plainHashes id id) (fun _ _ => True) (start 0) s ∧
      s.mails.length = 2 ∧ s.compared.length = 1 ∧ s.signIns = [⟨2, .code⟩] :=
    exists_run_satisfying events (by decide +kernel)
  obtain ⟨hmails, hcompared, hsignIns⟩ := hs
  exact ⟨s, hrun, hmails, hcompared, hsignIns, magic_link_law hrun⟩

/-- The first mail waits after its claim and leaves ten seconds before the second.  The
second row is redeemed, and its task then retires the first: the reader's only live link. -/
theorem link_retired_by_a_redeemed_one :
    ∃ s, Run (step ⟨15, 60⟩ plainHashes id id) (fun _ _ => True) (start 0) s ∧
      s.storageErrors = 0 ∧
      (∃ m ∈ s.mails, ∃ m' ∈ s.mails, m.row ≠ m'.row ∧ m.email = m'.email ∧
        m.leftAt ≤ m'.leftAt ∧ m'.leftAt < m.leftAt + window ⟨15, 60⟩ ∧
        ∀ t ∈ s.sends, t.phase = .done) ∧
      (s.rows.filter fun r => s.mails.any (·.row == r.id) && decide (s.now < r.expiresAt) &&
        r.usedAt.isNone).map (fun r => r.supersededAt.isSome) = [true] := by
  let events : List MagicLinkEvent :=
    ([.requested (newLink 1 "first" "n1" 0), .send 0 .claim, .send 0 .lock, .send 0 .update,
      .send 0 .commit, .tick (seconds 50), .send 0 (.sent true), .send 0 (.supersedeOthers true),
      .tick (seconds 60),
      .requested (newLink 2 "second" "n2" (seconds 60))] : List MagicLinkEvent) ++ mailing 1 ++
    ([.consume "second", .markUsed 0, .send 1 (.supersedeOthers true)] : List MagicLinkEvent)
  obtain ⟨s, hrun, hs⟩ : ∃ s, Run (step ⟨15, 60⟩ plainHashes id id) (fun _ _ => True) (start 0) s ∧
      s.storageErrors = 0 ∧
        (∃ m ∈ s.mails, ∃ m' ∈ s.mails, m.row ≠ m'.row ∧ m.email = m'.email ∧
          m.leftAt ≤ m'.leftAt ∧ m'.leftAt < m.leftAt + window ⟨15, 60⟩ ∧
          ∀ t ∈ s.sends, t.phase = .done) ∧
        (s.rows.filter fun r => s.mails.any (·.row == r.id) && decide (s.now < r.expiresAt) &&
          r.usedAt.isNone).map (fun r => r.supersededAt.isSome) = [true] :=
    exists_run_satisfying events (by decide +kernel)
  exact ⟨s, hrun, hs⟩

end MagicLinks

end Uptimepage
