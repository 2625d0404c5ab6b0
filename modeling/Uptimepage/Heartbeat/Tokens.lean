import Mathlib.Data.List.Induction
import Mathlib.Data.List.Pairwise
import Uptimepage.Heartbeat.State

/-!
# The tokens of a heartbeat

`rotate`, `revoke_previous` and the look-up of `record_signal_by_token` in the two stores of
`storage/heartbeats.rs`, over the token columns the ping state leaves out, and
`purge_expired_prev_tokens`.
-/

namespace Uptimepage.Heartbeat

def prevTokenOverlap : Time := seconds (24 * 60 * 60)

/-- `capability_token::mint`: the secret, its look-up key and its sealed copy. -/
structure Minted where
  raw : String
  hash : String
  sealed : String
deriving DecidableEq

/-! ## The columns -/

/-- `token` is the copy that is displayed again: sealed in the table, the secret in memory. -/
structure TokenColumns where
  token : String
  tokenHash : String
  tokenRotatedAt : Option Time
  prevTokenHash : Option String
  prevTokenExpiresAt : Option Time
  prevTokenLastUsedAt : Option Time
deriving DecidableEq

namespace TokenColumns

def inserted (token hash : String) : TokenColumns := ⟨token, hash, none, none, none, none⟩

/-- `prev_token_expires_at > now()`, and `open_overlap`. -/
def openOverlap (tokens : TokenColumns) (now : Time) : Bool :=
  tokens.prevTokenExpiresAt.any fun t => decide (now < t)

/-- The `WHERE` of `record_signal_by_token`, and its `find`. -/
def resolves (tokens : TokenColumns) (hash : String) (now : Time) : Bool :=
  tokens.tokenHash == hash || (tokens.prevTokenHash == some hash && tokens.openOverlap now)

/-- The `UPDATE` of `rotate`. -/
def rotated (tokens : TokenColumns) (now : Time) (revokePrevious : Bool) (minted : Minted) :
    TokenColumns where
  prevTokenHash := if revokePrevious then none else some tokens.tokenHash
  prevTokenExpiresAt := if revokePrevious then none else some (now + prevTokenOverlap)
  prevTokenLastUsedAt := none
  tokenHash := minted.hash
  token := minted.sealed
  tokenRotatedAt := some now

def rotatedInMemory (tokens : TokenColumns) (now : Time) (revokePrevious : Bool)
    (minted : Minted) : TokenColumns :=
  let superseded :=
    if revokePrevious then { tokens with prevTokenHash := none, prevTokenExpiresAt := none }
    else
      { tokens with
        prevTokenHash := some tokens.tokenHash
        prevTokenExpiresAt := some (now + prevTokenOverlap) }
  { superseded with
    tokenHash := minted.hash
    token := minted.raw
    tokenRotatedAt := some now
    prevTokenLastUsedAt := none }

/-- What `revoke_previous` and the purge write. -/
def closed (tokens : TokenColumns) : TokenColumns :=
  { tokens with
    prevTokenHash := none
    prevTokenExpiresAt := none
    prevTokenLastUsedAt := none }

/-- What a ping writes. -/
def used (tokens : TokenColumns) (hash : String) (now : Time) : TokenColumns :=
  { tokens with
    prevTokenLastUsedAt :=
      if tokens.prevTokenHash = some hash then some now else tokens.prevTokenLastUsedAt }

/-- The superseded token, while it is good. -/
def graced (tokens : TokenColumns) (now : Time) : Option String :=
  if tokens.openOverlap now then tokens.prevTokenHash else none

end TokenColumns

/-- A heartbeat as a store has it; `π` holds its pings. -/
structure Stored (π : Type) where
  org : OrgId
  targetId : Uuid
  ping : π
  tokens : TokenColumns
deriving DecidableEq

def Stored.isOf {π : Type} (hm : Stored π) (org : OrgId) (targetId : Uuid) : Bool :=
  hm.org == org && hm.targetId == targetId

/-- Writes the one heartbeat that `find` finds. -/
def modifyFirst {α : Type} (p : α → Bool) (f : α → α) : List α → List α
  | [] => []
  | a :: l => if p a then f a :: l else a :: modifyFirst p f l

/-! ## `PgHeartbeatStore` -/

namespace Pg

abbrev Table := List (Stored HeartbeatRow)

/-- The row `ensure` inserts. -/
def inserted (org : OrgId) (targetId : Uuid) (now : Time) (minted : Minted) :
    Stored HeartbeatRow :=
  ⟨org, targetId, .inserted now, .inserted minted.sealed minted.hash⟩

/-- The rows after, and the row returned. -/
def rotate (rows : Table) (org : OrgId) (targetId : Uuid) (revokePrevious : Bool) (now : Time)
    (minted : Minted) : Table × Option (Stored HeartbeatRow) :=
  let write (hm : Stored HeartbeatRow) : Stored HeartbeatRow :=
    { hm with tokens := hm.tokens.rotated now revokePrevious minted }
  (rows.map fun hm => if hm.isOf org targetId then write hm else hm,
    (rows.find? fun hm => hm.isOf org targetId).map write)

def revokePrevious (rows : Table) (org : OrgId) (targetId : Uuid) (now : Time) : Table × Bool :=
  let matched (hm : Stored HeartbeatRow) : Bool :=
    hm.isOf org targetId && hm.tokens.openOverlap now
  (rows.map fun hm => if matched hm then { hm with tokens := hm.tokens.closed } else hm,
    rows.any matched)

/-- `orgLive`: the organisation is not soft-deleted.  The join on `targets` always finds its row,
by the foreign key. -/
def recordSignalByToken (orgLive : OrgId → Bool) (rows : Table) (hash : String) (now : Time)
    (signal : PingSignal) (exitCode : Option UInt8) :
    Table × Option (OrgId × Uuid × PingAccepted) :=
  let prev (hm : Stored HeartbeatRow) : Bool := orgLive hm.org && hm.tokens.resolves hash now
  let write (hm : Stored HeartbeatRow) : Stored HeartbeatRow :=
    { hm with
      tokens := hm.tokens.used hash now
      ping := hm.ping.recordSignal now signal exitCode }
  (rows.map fun hm => if prev hm then write hm else hm,
    (rows.find? prev).map fun hm =>
      (hm.org, hm.targetId, hm.ping.accepted (hm.ping.recordSignal now signal exitCode) signal))

def purgeExpiredPrevTokens (rows : Table) (now : Time) : Table :=
  rows.map fun hm =>
    if hm.tokens.prevTokenExpiresAt.any fun t => decide (t < now) then
      { hm with tokens := hm.tokens.closed }
    else hm

end Pg

/-! ## `InMemoryHeartbeatStore` -/

namespace InMemory

abbrev Table := List (Stored HeartbeatMonitor)

def inserted (org : OrgId) (targetId : Uuid) (now : Time) (minted : Minted) :
    Stored HeartbeatMonitor :=
  ⟨org, targetId, (HeartbeatRow.inserted now).monitor, .inserted minted.raw minted.hash⟩

def rotate (st : Table) (org : OrgId) (targetId : Uuid) (revokePrevious : Bool) (now : Time)
    (minted : Minted) : Table × Option (Stored HeartbeatMonitor) :=
  let write (m : Stored HeartbeatMonitor) : Stored HeartbeatMonitor :=
    { m with tokens := m.tokens.rotatedInMemory now revokePrevious minted }
  (modifyFirst (fun m => m.isOf org targetId) write st,
    (st.find? fun m => m.isOf org targetId).map write)

def revokePrevious (st : Table) (org : OrgId) (targetId : Uuid) (now : Time) : Table × Bool :=
  let matched (m : Stored HeartbeatMonitor) : Bool :=
    m.isOf org targetId && m.tokens.openOverlap now
  (modifyFirst matched (fun m => { m with tokens := m.tokens.closed }) st, st.any matched)

def recordSignalByToken (st : Table) (hash : String) (now : Time) (signal : PingSignal)
    (exitCode : Option UInt8) : Table × Option (OrgId × Uuid × PingAccepted) :=
  let write (m : Stored HeartbeatMonitor) : Stored HeartbeatMonitor :=
    { m with
      tokens := m.tokens.used hash now
      ping := (m.ping.recordSignal now signal exitCode).1 }
  (modifyFirst (fun m => m.tokens.resolves hash now) write st,
    (st.find? fun m => m.tokens.resolves hash now).map fun m =>
      (m.org, m.targetId, (m.ping.recordSignal now signal exitCode).2))

end InMemory

/-! ## Runs -/

/-- A heartbeat as `ensure` makes it. -/
structure Created where
  org : OrgId
  targetId : Uuid
  time : Time
  minted : Minted
deriving DecidableEq

inductive TokenOp
  | rotate (org : OrgId) (targetId : Uuid) (revokePrevious : Bool) (minted : Minted)
  | revokePrevious (org : OrgId) (targetId : Uuid)
  | recordSignal (rawToken : String) (signal : PingSignal) (exitCode : Option UInt8)
  | purge
deriving DecidableEq

def TokenOp.minted? : TokenOp → Option Minted
  | .rotate _ _ _ minted => some minted
  | _ => none

abbrev Calls := List (Time × TokenOp)

/-- All tokens a run mints. -/
def mints (heartbeats : List Created) (calls : Calls) : List Minted :=
  heartbeats.map Created.minted ++ calls.filterMap fun call => call.2.minted?

/-- Time only advances, up to `now`. -/
def InOrderUntil (calls : Calls) (now : Time) : Prop :=
  (calls.map Prod.fst ++ [now]).Pairwise (· ≤ ·)

def Pg.step (hash : String → String) (orgLive : OrgId → Bool) (rows : Pg.Table)
    (call : Time × TokenOp) : Pg.Table :=
  match call.2 with
  | .rotate org targetId revokePrevious minted =>
    (Pg.rotate rows org targetId revokePrevious call.1 minted).1
  | .revokePrevious org targetId => (Pg.revokePrevious rows org targetId call.1).1
  | .recordSignal rawToken signal exitCode =>
    (Pg.recordSignalByToken orgLive rows (hash rawToken) call.1 signal exitCode).1
  | .purge => Pg.purgeExpiredPrevTokens rows call.1

def Pg.run (hash : String → String) (orgLive : OrgId → Bool) (heartbeats : List Created)
    (calls : Calls) : Pg.Table :=
  calls.foldl (Pg.step hash orgLive)
    (heartbeats.map fun c => Pg.inserted c.org c.targetId c.time c.minted)

def Pg.accepts (hash : String → String) (orgLive : OrgId → Bool) (rows : Pg.Table)
    (rawToken : String) (now : Time) (signal : PingSignal) (exitCode : Option UInt8) : Bool :=
  (Pg.recordSignalByToken orgLive rows (hash rawToken) now signal exitCode).2.isSome

/-- Nothing is purged in memory. -/
def InMemory.step (hash : String → String) (st : InMemory.Table) (call : Time × TokenOp) :
    InMemory.Table :=
  match call.2 with
  | .rotate org targetId revokePrevious minted =>
    (InMemory.rotate st org targetId revokePrevious call.1 minted).1
  | .revokePrevious org targetId => (InMemory.revokePrevious st org targetId call.1).1
  | .recordSignal rawToken signal exitCode =>
    (InMemory.recordSignalByToken st (hash rawToken) call.1 signal exitCode).1
  | .purge => st

def InMemory.run (hash : String → String) (heartbeats : List Created) (calls : Calls) :
    InMemory.Table :=
  calls.foldl (InMemory.step hash)
    (heartbeats.map fun c => InMemory.inserted c.org c.targetId c.time c.minted)

def InMemory.accepts (hash : String → String) (st : InMemory.Table) (rawToken : String)
    (now : Time) (signal : PingSignal) (exitCode : Option UInt8) : Bool :=
  (InMemory.recordSignalByToken st (hash rawToken) now signal exitCode).2.isSome

/-! ## What the tokens are meant to be -/

/-- The tokens a heartbeat was given, newest first, and until when the second is good. -/
structure Issued where
  org : OrgId
  targetId : Uuid
  tokens : List String
  grace : Option Time
deriving DecidableEq

namespace Issued

def created (c : Created) : Issued := ⟨c.org, c.targetId, [c.minted.raw], none⟩

def isOf (h : Issued) (org : OrgId) (targetId : Uuid) : Bool :=
  h.org == org && h.targetId == targetId

def graced (h : Issued) (now : Time) : Option String :=
  if h.grace.any fun t => decide (now < t) then h.tokens[1]? else none

/-- The newest, or the one before within its grace. -/
def Live (h : Issued) (rawToken : String) (now : Time) : Prop :=
  h.tokens.head? = some rawToken ∨ h.graced now = some rawToken

def on (call : Time × TokenOp) (h : Issued) : Issued :=
  match call.2 with
  | .rotate org targetId revokePrevious minted =>
    if h.isOf org targetId then
      { h with
        tokens := minted.raw :: h.tokens
        grace := if revokePrevious then none else some (call.1 + prevTokenOverlap) }
    else h
  | .revokePrevious org targetId => if h.isOf org targetId then { h with grace := none } else h
  | _ => h

end Issued

def issued (heartbeats : List Created) (calls : Calls) : List Issued :=
  calls.foldl (fun book call => book.map (Issued.on call)) (heartbeats.map Issued.created)

/-! ## A store follows the books -/

section

variable {π : Type} {hash : String → String} {hm : Stored π} {h : Issued} {now t : Time}
  {rawToken : String}

theorem resolves_iff {tokens : TokenColumns} {key : String} :
    tokens.resolves key now = true ↔ tokens.tokenHash = key ∨ tokens.graced now = some key := by
  unfold TokenColumns.resolves TokenColumns.graced
  cases tokens.openOverlap now <;> simp

theorem rotatedInMemory_eq (tokens : TokenColumns) (now : Time) (revokePrevious : Bool)
    (minted : Minted) : tokens.rotatedInMemory now revokePrevious minted =
      tokens.rotated now revokePrevious { minted with sealed := minted.raw } := by
  cases revokePrevious <;> rfl

/-- From `now` on the row's columns are those of what was issued. -/
structure Follows (hash : String → String) (now : Time) (hm : Stored π) (h : Issued) : Prop where
  org : hm.org = h.org
  targetId : hm.targetId = h.targetId
  newest : h.tokens.head?.map hash = some hm.tokens.tokenHash
  superseded : ∀ t, now ≤ t → hm.tokens.graced t = (h.graced t).map hash

theorem Follows.later {later : Time} (hf : Follows hash now hm h) (hle : now ≤ later) :
    Follows hash later hm h :=
  ⟨hf.org, hf.targetId, hf.newest, fun t ht => hf.superseded t (le_trans hle ht)⟩

theorem Follows.isOf (hf : Follows hash now hm h) (org : OrgId) (targetId : Uuid) :
    hm.isOf org targetId = h.isOf org targetId := by
  rw [Stored.isOf, Issued.isOf, hf.org, hf.targetId]

theorem follows_created (c : Created) (ping : π) (token : String)
    (hkey : c.minted.hash = hash c.minted.raw) :
    Follows hash now ⟨c.org, c.targetId, ping, .inserted token c.minted.hash⟩ (.created c) :=
  ⟨rfl, rfl, congrArg some hkey.symm, fun _ _ => rfl⟩

theorem Follows.rotated (hf : Follows hash now hm h) (revokePrevious : Bool) {minted : Minted}
    (hkey : minted.hash = hash minted.raw) :
    Follows hash now { hm with tokens := hm.tokens.rotated now revokePrevious minted }
      { h with
        tokens := minted.raw :: h.tokens
        grace := if revokePrevious then none else some (now + prevTokenOverlap) } := by
  refine ⟨hf.org, hf.targetId, congrArg some hkey.symm, fun t _ => ?_⟩
  have hsecond : (minted.raw :: h.tokens)[1]? = h.tokens.head? := by
    rw [List.getElem?_cons_succ, List.head?_eq_getElem?]
  unfold TokenColumns.graced TokenColumns.openOverlap TokenColumns.rotated Issued.graced
  cases revokePrevious with
  | true => rfl
  | false =>
    simp only [hsecond, Bool.false_eq_true, if_false, Option.any_some, decide_eq_true_eq]
    split
    · exact hf.newest.symm
    · rfl

theorem Follows.closed (hf : Follows hash now hm h) :
    Follows hash now { hm with tokens := hm.tokens.closed } { h with grace := none } :=
  ⟨hf.org, hf.targetId, hf.newest, fun _ _ => rfl⟩

theorem Follows.of_expired (hf : Follows hash now hm h) (hover : hm.tokens.openOverlap now = false) :
    Follows hash now hm { h with grace := none } := by
  refine ⟨hf.org, hf.targetId, hf.newest, fun t ht => ?_⟩
  have hlater : hm.tokens.openOverlap t = false := by
    unfold TokenColumns.openOverlap at hover ⊢
    cases hexp : hm.tokens.prevTokenExpiresAt with
    | none => rfl
    | some e =>
      rw [hexp, Option.any_some, decide_eq_false_iff_not] at hover
      rw [Option.any_some, decide_eq_false_iff_not]
      exact fun hlt => hover (lt_of_le_of_lt ht hlt)
  simp [TokenColumns.graced, hlater, Issued.graced]

theorem Follows.purged (hf : Follows hash now hm h)
    (hexpired : (hm.tokens.prevTokenExpiresAt.any fun t => decide (t < now)) = true) :
    Follows hash now { hm with tokens := hm.tokens.closed } h := by
  refine ⟨hf.org, hf.targetId, hf.newest, fun t ht => ?_⟩
  obtain ⟨e, he, hlt⟩ := Option.any_eq_true _ _ |>.mp hexpired
  rw [decide_eq_true_eq] at hlt
  have hnone : hm.tokens.graced t = none := by
    unfold TokenColumns.graced TokenColumns.openOverlap
    rw [he, Option.any_some, if_neg]
    rw [decide_eq_true_eq]
    exact not_lt.mpr (le_of_lt (lt_of_lt_of_le hlt ht))
  rw [← hf.superseded t ht, hnone]
  rfl

theorem Follows.used (hf : Follows hash now hm h) (key : String) (time : Time) (ping : π) :
    Follows hash now { hm with tokens := hm.tokens.used key time, ping := ping } h :=
  ⟨hf.org, hf.targetId, hf.newest, hf.superseded⟩

theorem Follows.resolves_iff (hf : Follows hash now hm h)
    (hcollision : ∀ token ∈ h.tokens, hash rawToken = hash token → rawToken = token) :
    hm.tokens.resolves (hash rawToken) now = true ↔ h.Live rawToken now := by
  have hmap : ∀ {o : Option String}, (∀ token ∈ o, token ∈ h.tokens) →
      (o.map hash = some (hash rawToken) ↔ o = some rawToken) := by
    intro o hmem
    cases o with
    | none => simp
    | some token =>
      have hsame := hcollision token (hmem token rfl)
      simp only [Option.map_some, Option.some.injEq]
      exact ⟨fun heq => (hsame heq.symm).symm, congrArg hash⟩
  have hgraced : ∀ token ∈ h.graced now, token ∈ h.tokens := by
    intro token htoken
    unfold Issued.graced at htoken
    split at htoken
    · exact List.mem_of_getElem? htoken
    · cases htoken
  rw [Heartbeat.resolves_iff, hf.superseded now (le_refl now), Issued.Live, hmap hgraced,
    ← hmap fun token htoken => List.mem_of_head? htoken, hf.newest, Option.some.injEq]

/-! ### One call -/

theorem follows_rotate (hf : Follows hash now hm h) (org : OrgId) (targetId : Uuid)
    (revokePrevious : Bool) {minted : Minted} (hkey : minted.hash = hash minted.raw) :
    Follows hash now
      (if hm.isOf org targetId then
        { hm with tokens := hm.tokens.rotated now revokePrevious minted } else hm)
      (h.on (now, .rotate org targetId revokePrevious minted)) := by
  rw [hf.isOf]
  unfold Issued.on
  dsimp only
  split
  · exact hf.rotated revokePrevious hkey
  · exact hf

theorem follows_revokePrevious (hf : Follows hash now hm h) (org : OrgId) (targetId : Uuid) :
    Follows hash now
      (if hm.isOf org targetId && hm.tokens.openOverlap now then
        { hm with tokens := hm.tokens.closed } else hm)
      (h.on (now, .revokePrevious org targetId)) := by
  rw [hf.isOf]
  unfold Issued.on
  dsimp only
  cases h.isOf org targetId with
  | false => exact hf
  | true =>
    cases hover : hm.tokens.openOverlap now with
    | true => exact hf.closed
    | false => exact hf.of_expired hover

theorem Issued.on_key (call : Time × TokenOp) (h : Issued) :
    (h.on call).org = h.org ∧ (h.on call).targetId = h.targetId := by
  obtain ⟨time, op⟩ := call
  unfold Issued.on
  cases op <;> dsimp only <;> (try split) <;> exact ⟨rfl, rfl⟩

end

/-! ## Runs of the stores -/

section

variable {hash : String → String} {orgLive : OrgId → Bool} {now : Time} {book : List Issued}
  {heartbeats : List Created} {call : Time × TokenOp} {calls : Calls}

def Stored.key {π : Type} (hm : Stored π) : OrgId × Uuid := (hm.org, hm.targetId)

def Issued.key (h : Issued) : OrgId × Uuid := (h.org, h.targetId)

def Created.key (c : Created) : OrgId × Uuid := (c.org, c.targetId)

theorem pg_step {rows : Pg.Table} (hf : rows.Forall₂ (Follows hash now) book)
    (hle : now ≤ call.1) (hkey : ∀ minted ∈ call.2.minted?, minted.hash = hash minted.raw) :
    (Pg.step hash orgLive rows call).Forall₂ (Follows hash call.1) (book.map (Issued.on call)) := by
  obtain ⟨time, op⟩ := call
  rw [List.forall₂_map_right_iff]
  have hlater : rows.Forall₂ (Follows hash time) book := hf.imp fun _ _ h => h.later hle
  cases op with
  | rotate org targetId revokePrevious minted =>
    refine List.forall₂_map_left_iff.mpr (hlater.imp fun hm h hfollows => ?_)
    exact follows_rotate hfollows org targetId revokePrevious (hkey minted rfl)
  | revokePrevious org targetId =>
    refine List.forall₂_map_left_iff.mpr (hlater.imp fun hm h hfollows => ?_)
    exact follows_revokePrevious hfollows org targetId
  | recordSignal rawToken signal exitCode =>
    refine List.forall₂_map_left_iff.mpr (hlater.imp fun hm h hfollows => ?_)
    split
    · exact hfollows.used _ _ _
    · exact hfollows
  | purge =>
    refine List.forall₂_map_left_iff.mpr (hlater.imp fun hm h hfollows => ?_)
    split
    · next hexpired => exact hfollows.purged hexpired
    · exact hfollows

theorem modifyFirst_eq_map {α : Type} {p : α → Bool} {f : α → α} {l : List α}
    (h : l.Pairwise fun a b => p a = true → p b = false) :
    modifyFirst p f l = l.map fun a => if p a then f a else a := by
  induction l with
  | nil => rfl
  | cons a l ih =>
    obtain ⟨hfirst, hrest⟩ := List.pairwise_cons.mp h
    unfold modifyFirst
    rw [List.map_cons]
    split
    · next ha =>
      have hothers : ∀ b ∈ l, (if p b = true then f b else b) = b := fun b hb =>
        if_neg (by rw [hfirst b hb ha]; decide)
      rw [List.map_congr_left hothers, List.map_id']
    · rw [ih hrest]

theorem forall₂_modifyFirst {α β : Type} {R : α → β → Prop} {p : α → Bool} {f : α → α}
    {l : List α} {m : List β} (h : l.Forall₂ R m) (hf : ∀ a b, R a b → R (f a) b) :
    (modifyFirst p f l).Forall₂ R m := by
  induction h with
  | nil => exact .nil
  | cons hab hrest ih =>
    unfold modifyFirst
    split
    · exact .cons (hf _ _ hab) hrest
    · exact .cons hab ih

theorem keys_eq {π : Type} {rows : List (Stored π)} (hf : rows.Forall₂ (Follows hash now) book) :
    rows.map Stored.key = book.map Issued.key := by
  induction hf with
  | nil => rfl
  | cons h _ ih => rw [List.map_cons, List.map_cons, ih, Stored.key, h.org, h.targetId]; rfl

theorem isOf_pairwise {π : Type} {rows : List (Stored π)} (hnodup : (rows.map Stored.key).Nodup)
    (org : OrgId) (targetId : Uuid) :
    rows.Pairwise fun a b => a.isOf org targetId = true → b.isOf org targetId = false := by
  refine (List.pairwise_map.mp hnodup).imp fun hne ha => ?_
  rw [Bool.eq_false_iff]
  intro hb
  simp only [Stored.isOf, Bool.and_eq_true, beq_iff_eq] at ha hb
  exact hne (Prod.ext (ha.1.trans hb.1.symm) (ha.2.trans hb.2.symm))

theorem memory_step {st : InMemory.Table} (hf : st.Forall₂ (Follows hash now) book)
    (hnodup : (book.map Issued.key).Nodup) (hle : now ≤ call.1)
    (hkey : ∀ minted ∈ call.2.minted?, minted.hash = hash minted.raw) :
    (InMemory.step hash st call).Forall₂ (Follows hash call.1) (book.map (Issued.on call)) := by
  obtain ⟨time, op⟩ := call
  rw [← keys_eq hf] at hnodup
  rw [List.forall₂_map_right_iff]
  have hlater : st.Forall₂ (Follows hash time) book := hf.imp fun _ _ h => h.later hle
  cases op with
  | rotate org targetId revokePrevious minted =>
    show (modifyFirst _ _ st).Forall₂ _ _
    rw [modifyFirst_eq_map (isOf_pairwise hnodup org targetId)]
    refine List.forall₂_map_left_iff.mpr (hlater.imp fun m h hfollows => ?_)
    have hsealed : Minted.hash ⟨minted.raw, minted.hash, minted.raw⟩ =
        hash (Minted.raw ⟨minted.raw, minted.hash, minted.raw⟩) := hkey minted rfl
    rw [rotatedInMemory_eq]
    exact follows_rotate hfollows org targetId revokePrevious hsealed
  | revokePrevious org targetId =>
    show (modifyFirst _ _ st).Forall₂ _ _
    rw [modifyFirst_eq_map]
    · refine List.forall₂_map_left_iff.mpr (hlater.imp fun m h hfollows => ?_)
      exact follows_revokePrevious hfollows org targetId
    · refine (isOf_pairwise hnodup org targetId).imp fun himp ha => ?_
      rw [Bool.and_eq_true] at ha
      rw [himp ha.1, Bool.false_and]
  | recordSignal rawToken signal exitCode =>
    show (modifyFirst _ _ st).Forall₂ _ _
    exact forall₂_modifyFirst hlater fun m h hfollows => hfollows.used _ _ _
  | purge => exact hlater

theorem issued_append (heartbeats : List Created) (before after : Calls) :
    issued heartbeats (before ++ after) =
      after.foldl (fun book call => book.map (Issued.on call)) (issued heartbeats before) :=
  List.foldl_append

theorem issued_keys (heartbeats : List Created) (calls : Calls) :
    (issued heartbeats calls).map Issued.key = heartbeats.map Created.key := by
  have hfold : ∀ (calls : Calls) (book : List Issued),
      (calls.foldl (fun book call => book.map (Issued.on call)) book).map Issued.key =
        book.map Issued.key := by
    intro calls
    induction calls with
    | nil => exact fun _ => rfl
    | cons call calls ih =>
      intro book
      rw [List.foldl_cons, ih, List.map_map]
      refine List.map_congr_left fun h _ => ?_
      obtain ⟨horg, htarget⟩ := Issued.on_key call h
      exact Prod.ext horg htarget
  rw [issued, hfold, List.map_map]
  rfl

theorem follows_run {π : Type} {step : List (Stored π) → Time × TokenOp → List (Stored π)}
    (hnodup : (heartbeats.map Created.key).Nodup)
    (hstep : ∀ rows book now (call : Time × TokenOp), rows.Forall₂ (Follows hash now) book →
      (book.map Issued.key).Nodup → now ≤ call.1 →
      (∀ minted ∈ call.2.minted?, minted.hash = hash minted.raw) →
      (step rows call).Forall₂ (Follows hash call.1) (book.map (Issued.on call)))
    {rows : List (Stored π)}
    (hstart : ∀ t, rows.Forall₂ (Follows hash t) (heartbeats.map Issued.created))
    (horder : InOrderUntil calls now)
    (hkeys : ∀ minted ∈ mints heartbeats calls, minted.hash = hash minted.raw) :
    (calls.foldl step rows).Forall₂ (Follows hash now) (issued heartbeats calls) := by
  -- the last call made, by induction from the end
  induction calls using List.reverseRecOn generalizing now with
  | nil => exact hstart now
  | append_singleton calls call ih =>
    have hsplit : InOrderUntil calls call.1 ∧ call.1 ≤ now := by
      unfold InOrderUntil at horder ⊢
      rw [List.map_append, List.map_singleton] at horder
      obtain ⟨hbefore, -, hlast⟩ := List.pairwise_append.mp horder
      exact ⟨hbefore, hlast call.1 (by simp) now (by simp)⟩
    have hkeys' : ∀ minted ∈ mints heartbeats calls, minted.hash = hash minted.raw := by
      intro minted hminted
      refine hkeys minted ?_
      unfold mints at hminted ⊢
      rw [List.filterMap_append, ← List.append_assoc]
      exact List.mem_append_left _ hminted
    have hnew : ∀ minted ∈ call.2.minted?, minted.hash = hash minted.raw := by
      intro minted hminted
      refine hkeys minted ?_
      unfold mints
      rw [List.filterMap_append]
      refine List.mem_append_right _ (List.mem_append_right _ ?_)
      exact List.mem_filterMap.mpr ⟨call, List.mem_singleton_self _, hminted⟩
    rw [List.foldl_append, issued_append]
    have hbefore := ih hsplit.1 hkeys'
    have hafter := hstep _ _ _ call hbefore (by rw [issued_keys]; exact hnodup) (le_refl _) hnew
    exact hafter.imp fun _ _ h => h.later hsplit.2

theorem pg_run (orgLive : OrgId → Bool) (hnodup : (heartbeats.map Created.key).Nodup)
    (horder : InOrderUntil calls now)
    (hkeys : ∀ minted ∈ mints heartbeats calls, minted.hash = hash minted.raw) :
    (Pg.run hash orgLive heartbeats calls).Forall₂ (Follows hash now)
      (issued heartbeats calls) := by
  refine follows_run hnodup (fun _ _ _ _ hf _ hle hkey => pg_step hf hle hkey) (fun t => ?_)
    horder hkeys
  rw [List.forall₂_map_left_iff, List.forall₂_map_right_iff, List.forall₂_same]
  intro c hc
  exact follows_created c _ _
    (hkeys _ (List.mem_append_left _ (List.mem_map_of_mem hc)))

theorem memory_run (hnodup : (heartbeats.map Created.key).Nodup) (horder : InOrderUntil calls now)
    (hkeys : ∀ minted ∈ mints heartbeats calls, minted.hash = hash minted.raw) :
    (InMemory.run hash heartbeats calls).Forall₂ (Follows hash now)
      (issued heartbeats calls) := by
  refine follows_run hnodup (fun _ _ _ _ hf hkey hle hnew => memory_step hf hkey hle hnew)
    (fun t => ?_) horder hkeys
  rw [List.forall₂_map_left_iff, List.forall₂_map_right_iff, List.forall₂_same]
  intro c hc
  exact follows_created c _ _
    (hkeys _ (List.mem_append_left _ (List.mem_map_of_mem hc)))

/-! ## What was issued -/

/-- Two heartbeats, and no token of both. -/
def Issued.Apart (h h' : Issued) : Prop := h.key ≠ h'.key ∧ ∀ token ∈ h.tokens, token ∉ h'.tokens

/-- Every token is one heartbeat's, once. -/
structure Distinct (book : List Issued) : Prop where
  once : ∀ h ∈ book, h.tokens.Nodup
  apart : book.Pairwise Issued.Apart

theorem Issued.on_tokens (call : Time × TokenOp) (h : Issued) :
    (h.on call).tokens = h.tokens ∨
      ∃ minted ∈ call.2.minted?, (h.on call).tokens = minted.raw :: h.tokens ∧
        ∀ h' : Issued, h'.key ≠ h.key → (h'.on call).tokens = h'.tokens := by
  obtain ⟨time, op⟩ := call
  cases op with
  | rotate org targetId revokePrevious minted =>
    unfold Issued.on
    dsimp only
    by_cases hmine : h.isOf org targetId = true
    · refine .inr ⟨minted, rfl, by rw [if_pos hmine], fun h' hne => ?_⟩
      have hother : h'.isOf org targetId = false := by
        rw [Bool.eq_false_iff]
        intro hboth
        simp only [Issued.isOf, Bool.and_eq_true, beq_iff_eq] at hmine hboth
        exact hne (Prod.ext (hboth.1.trans hmine.1.symm) (hboth.2.trans hmine.2.symm))
      rw [hother]
      rfl
    · rw [if_neg hmine]
      exact .inl rfl
  | revokePrevious org targetId =>
    unfold Issued.on
    dsimp only
    split <;> exact .inl rfl
  | recordSignal rawToken signal exitCode => exact .inl rfl
  | purge => exact .inl rfl

theorem Issued.key_on (call : Time × TokenOp) (h : Issued) : (h.on call).key = h.key := by
  obtain ⟨horg, htarget⟩ := Issued.on_key call h
  exact Prod.ext horg htarget

theorem Distinct.on (hd : Distinct book) (call : Time × TokenOp)
    (hfresh : ∀ minted ∈ call.2.minted?, ∀ h ∈ book, minted.raw ∉ h.tokens) :
    Distinct (book.map (Issued.on call)) := by
  constructor
  · intro h' hh'
    obtain ⟨h, hh, rfl⟩ := List.mem_map.mp hh'
    rcases Issued.on_tokens call h with hsame | ⟨minted, hminted, hnew, -⟩
    · rw [hsame]
      exact hd.once h hh
    · rw [hnew]
      exact List.nodup_cons.mpr ⟨hfresh minted hminted h hh, hd.once h hh⟩
  · rw [List.pairwise_map]
    refine hd.apart.imp_of_mem fun {a b} ha hb hapart => ⟨?_, ?_⟩
    · rw [Issued.key_on, Issued.key_on]
      exact hapart.1
    · rcases Issued.on_tokens call a with hsame | ⟨minted, hminted, hnew, hrest⟩
      · rw [hsame]
        rcases Issued.on_tokens call b with hsame' | ⟨minted, hminted, hnew, -⟩
        · rw [hsame']
          exact hapart.2
        · rw [hnew]
          intro token htoken hmem
          rcases List.mem_cons.mp hmem with rfl | hmem
          · exact hfresh minted hminted a ha htoken
          · exact hapart.2 token htoken hmem
      · rw [hnew, hrest b hapart.1.symm]
        exact List.forall_mem_cons.mpr ⟨hfresh minted hminted b hb, hapart.2⟩

theorem mints_append (heartbeats : List Created) (calls : Calls) (call : Time × TokenOp) :
    mints heartbeats (calls ++ [call]) = mints heartbeats calls ++ call.2.minted?.toList := by
  unfold mints
  rw [List.filterMap_append, List.append_assoc, List.filterMap_cons]
  cases call.2.minted? <;> rfl

theorem minted_of_issued {h : Issued} {token : String} (hh : h ∈ issued heartbeats calls)
    (htoken : token ∈ h.tokens) : ∃ minted ∈ mints heartbeats calls, minted.raw = token := by
  induction calls using List.reverseRecOn generalizing h with
  | nil =>
    obtain ⟨c, hc, rfl⟩ := List.mem_map.mp hh
    exact ⟨c.minted, List.mem_append_left _ (List.mem_map_of_mem hc),
      (List.mem_singleton.mp htoken).symm⟩
  | append_singleton calls call ih =>
    rw [issued_append] at hh
    obtain ⟨h', hh', rfl⟩ := List.mem_map.mp hh
    rw [mints_append]
    have hold : token ∈ h'.tokens →
        ∃ minted ∈ mints heartbeats calls ++ call.2.minted?.toList, minted.raw = token := by
      intro hmem
      obtain ⟨minted, hminted, hraw⟩ := ih hh' hmem
      exact ⟨minted, List.mem_append_left _ hminted, hraw⟩
    rcases Issued.on_tokens call h' with hsame | ⟨minted, hminted, hnew, -⟩
    · rw [hsame] at htoken
      exact hold htoken
    · rw [hnew] at htoken
      rcases List.mem_cons.mp htoken with rfl | hmem
      · exact ⟨minted, List.mem_append_right _ (Option.mem_toList.mpr hminted), rfl⟩
      · exact hold hmem

theorem distinct_issued (hnodup : (heartbeats.map Created.key).Nodup)
    (hfresh : ((mints heartbeats calls).map Minted.raw).Nodup) :
    Distinct (issued heartbeats calls) := by
  induction calls using List.reverseRecOn with
  | nil =>
    constructor
    · intro h hh
      obtain ⟨c, -, rfl⟩ := List.mem_map.mp hh
      exact List.nodup_singleton _
    · simp only [mints, List.filterMap_nil, List.append_nil, List.map_map] at hfresh
      refine List.pairwise_map.mpr ?_
      refine ((List.pairwise_map.mp hnodup).and (List.pairwise_map.mp hfresh)).imp ?_
      rintro a b ⟨hkey, hraw⟩
      refine ⟨hkey, fun token htoken hboth => hraw ?_⟩
      exact (List.mem_singleton.mp htoken).symm.trans (List.mem_singleton.mp hboth)
  | append_singleton calls call ih =>
    rw [mints_append, List.map_append] at hfresh
    obtain ⟨hbefore, -, hnew⟩ := List.nodup_append.mp hfresh
    rw [issued_append]
    refine (ih hbefore).on call fun minted hminted h hh hmem => ?_
    obtain ⟨old, hold, hraw⟩ := minted_of_issued hh hmem
    exact hnew _ (List.mem_map_of_mem hold) _
      (List.mem_map_of_mem (Option.mem_toList.mpr hminted)) hraw

theorem Distinct.not_shared (hd : Distinct book) {h h' : Issued} {token : String} (hh : h ∈ book)
    (hh' : h' ∈ book) (hne : h ≠ h') (htoken : token ∈ h.tokens) : token ∉ h'.tokens := by
  have hsymm : Std.Symm fun a b : Issued => ∀ token ∈ a.tokens, token ∉ b.tokens :=
    ⟨fun a b hab token hb ha => hab token ha hb⟩
  have hapart : book.Pairwise fun a b => ∀ token ∈ a.tokens, token ∉ b.tokens :=
    hd.apart.imp fun h => h.2
  exact hapart.forall hh hh' hne token htoken

/-! ## What is over -/

/-- Neither the newest, nor the one before with a grace. -/
structure Issued.Spent (h : Issued) (rawToken : String) : Prop where
  superseded : h.tokens.head? ≠ some rawToken
  closed : h.tokens[1]? = some rawToken → h.grace = none

variable {h : Issued} {rawToken : String}

theorem Issued.Spent.not_live (hs : h.Spent rawToken) (now : Time) : ¬ h.Live rawToken now := by
  rintro (hnewest | hgraced)
  · exact hs.superseded hnewest
  · unfold Issued.graced at hgraced
    split at hgraced
    · next hopen =>
      rw [hs.closed hgraced] at hopen
      cases hopen
    · cases hgraced

theorem Issued.spent_of_not_mem (hnot : rawToken ∉ h.tokens) : h.Spent rawToken :=
  ⟨fun hhead => hnot (List.mem_of_head? hhead),
    fun hsecond => absurd (List.mem_of_getElem? hsecond) hnot⟩

theorem Issued.spent_of_over (hnodup : h.tokens.Nodup)
    (hover : rawToken ∈ h.tokens.drop 2 ∨ rawToken ∈ h.tokens.drop 1 ∧ h.grace = none) :
    h.Spent rawToken := by
  have hlater : rawToken ∈ h.tokens.drop 1 := by
    rcases hover with htwice | ⟨hmem, -⟩
    · exact (List.drop_sublist_drop_left h.tokens (by omega)).subset htwice
    · exact hmem
  constructor
  · intro hhead
    cases htokens : h.tokens with
    | nil => rw [htokens] at hhead; cases hhead
    | cons newest rest =>
      rw [htokens] at hhead hlater hnodup
      obtain rfl := Option.some.inj hhead
      exact (List.nodup_cons.mp hnodup).1 hlater
  · intro hsecond
    rcases hover with htwice | ⟨-, hgrace⟩
    · obtain ⟨i, hi, hget⟩ := List.mem_iff_getElem.mp htwice
      rw [List.getElem_drop] at hget
      obtain ⟨hlt, hget'⟩ := List.getElem?_eq_some_iff.mp hsecond
      have heq := (List.Nodup.getElem_inj_iff hnodup).mp (hget'.trans hget.symm)
      omega
    · exact hgrace

theorem Issued.Spent.on (hs : h.Spent rawToken) (call : Time × TokenOp)
    (hfresh : ∀ minted ∈ call.2.minted?, minted.raw ≠ rawToken) : (h.on call).Spent rawToken := by
  obtain ⟨time, op⟩ := call
  cases op with
  | rotate org targetId revokePrevious minted =>
    unfold Issued.on
    dsimp only
    split
    · constructor
      · exact fun hhead => hfresh minted rfl (Option.some.inj hhead)
      · intro hsecond
        rw [List.getElem?_cons_succ, ← List.head?_eq_getElem?] at hsecond
        exact absurd hsecond hs.superseded
    · exact hs
  | revokePrevious org targetId =>
    unfold Issued.on
    dsimp only
    split
    · exact ⟨hs.superseded, fun _ => rfl⟩
    · exact hs
  | recordSignal _ signal exitCode => exact hs
  | purge => exact hs

theorem spent_run {before after : Calls}
    (hs : ∀ h ∈ issued heartbeats before, h.Spent rawToken)
    (hfresh : ∀ minted ∈ after.filterMap fun call => call.2.minted?, minted.raw ≠ rawToken) :
    ∀ h ∈ issued heartbeats (before ++ after), h.Spent rawToken := by
  induction after using List.reverseRecOn with
  | nil => rwa [List.append_nil]
  | append_singleton after call ih =>
    rw [List.filterMap_append] at hfresh
    rw [← List.append_assoc, issued_append]
    intro h hh
    obtain ⟨h', hh', rfl⟩ := List.mem_map.mp hh
    refine (ih (fun m hm => hfresh m (List.mem_append_left _ hm)) h' hh').on call ?_
    intro minted hminted
    refine hfresh minted (List.mem_append_right _ ?_)
    exact List.mem_filterMap.mpr ⟨call, List.mem_singleton_self _, hminted⟩

end

/-! ## What the stores accept -/

theorem mem_take_two {l : List String} {a : String} (h : l.head? = some a ∨ l[1]? = some a) :
    a ∈ l.take 2 := by
  match l, h with
  | [], h => simp at h
  | [b], h => simpa [eq_comm] using h
  | b :: c :: l, h => simpa [eq_comm] using h

section

variable {hash : String → String} {now : Time} {book : List Issued} {rawToken : String}

theorem exists_resolves_iff {π : Type} {rows : List (Stored π)} (live : OrgId → Bool)
    (hf : rows.Forall₂ (Follows hash now) book)
    (hcollision : ∀ h ∈ book, ∀ token ∈ h.tokens, hash rawToken = hash token → rawToken = token) :
    (∃ hm ∈ rows, live hm.org = true ∧ hm.tokens.resolves (hash rawToken) now = true) ↔
      ∃ h ∈ book, live h.org = true ∧ h.Live rawToken now := by
  induction hf with
  | nil => simp
  | cons hfollows _ ih =>
    obtain ⟨hfirst, hrest⟩ := List.forall_mem_cons.mp hcollision
    rw [List.exists_mem_cons_iff, List.exists_mem_cons_iff, ih hrest, hfollows.resolves_iff hfirst,
      hfollows.org]

theorem Pg.accepts_iff (orgLive : OrgId → Bool) (signal : PingSignal) (exitCode : Option UInt8)
    {rows : Pg.Table} (hf : rows.Forall₂ (Follows hash now) book)
    (hcollision : ∀ h ∈ book, ∀ token ∈ h.tokens, hash rawToken = hash token → rawToken = token) :
    Pg.accepts hash orgLive rows rawToken now signal exitCode = true ↔
      ∃ h ∈ book, orgLive h.org = true ∧ h.Live rawToken now := by
  rw [← exists_resolves_iff orgLive hf hcollision]
  unfold Pg.accepts Pg.recordSignalByToken
  rw [Option.isSome_map, List.find?_isSome]
  simp only [Bool.and_eq_true]

theorem InMemory.accepts_iff (signal : PingSignal) (exitCode : Option UInt8)
    {st : InMemory.Table} (hf : st.Forall₂ (Follows hash now) book)
    (hcollision : ∀ h ∈ book, ∀ token ∈ h.tokens, hash rawToken = hash token → rawToken = token) :
    InMemory.accepts hash st rawToken now signal exitCode = true ↔
      ∃ h ∈ book, h.Live rawToken now := by
  have hall := exists_resolves_iff (fun _ => true) hf hcollision
  simp only [true_and] at hall
  rw [← hall]
  unfold InMemory.accepts InMemory.recordSignalByToken
  rw [Option.isSome_map, List.find?_isSome]

end

/-- **At most two tokens live.**  However tokens were rotated and revoked, a store accepts just the
newest token of a heartbeat, and the one before within its grace; in the table the organisation
must not be deleted.  A token superseded twice, or superseded and revoked, is accepted at no time
after.  The tokens minted are all different, and no other text has the key of one. -/
theorem two_tokens_live (hash : String → String) (orgLive : OrgId → Bool)
    (heartbeats : List Created) (calls : Calls) (now : Time) (rawToken : String)
    (signal : PingSignal) (exitCode : Option UInt8)
    (hnodup : (heartbeats.map Created.key).Nodup) (horder : InOrderUntil calls now)
    (hkeys : ∀ minted ∈ mints heartbeats calls, minted.hash = hash minted.raw)
    (hfresh : ((mints heartbeats calls).map Minted.raw).Nodup)
    (hcollision : ∀ minted ∈ mints heartbeats calls,
      hash rawToken = hash minted.raw → rawToken = minted.raw) :
    (Pg.accepts hash orgLive (Pg.run hash orgLive heartbeats calls) rawToken now signal
        exitCode = true ↔
      ∃ h ∈ issued heartbeats calls, orgLive h.org = true ∧ h.Live rawToken now) ∧
    (InMemory.accepts hash (InMemory.run hash heartbeats calls) rawToken now signal
        exitCode = true ↔
      ∃ h ∈ issued heartbeats calls, h.Live rawToken now) ∧
    (∀ h ∈ issued heartbeats calls, h.Live rawToken now → rawToken ∈ h.tokens.take 2) ∧
    ∀ before after, calls = before ++ after → ∀ h ∈ issued heartbeats before,
      (rawToken ∈ h.tokens.drop 2 ∨ rawToken ∈ h.tokens.drop 1 ∧ h.grace = none) →
        Pg.accepts hash orgLive (Pg.run hash orgLive heartbeats calls) rawToken now signal
            exitCode = false ∧
          InMemory.accepts hash (InMemory.run hash heartbeats calls) rawToken now signal
            exitCode = false := by
  have hbook : ∀ h ∈ issued heartbeats calls, ∀ token ∈ h.tokens,
      hash rawToken = hash token → rawToken = token := by
    intro h hh token htoken
    obtain ⟨minted, hminted, rfl⟩ := minted_of_issued hh htoken
    exact hcollision minted hminted
  have hpg := Pg.accepts_iff orgLive signal exitCode (pg_run orgLive hnodup horder hkeys) hbook
  have hmemory := InMemory.accepts_iff signal exitCode (memory_run hnodup horder hkeys) hbook
  refine ⟨hpg, hmemory, fun h _ hlive => ?_, ?_⟩
  · rcases hlive with hnewest | hgraced
    · exact mem_take_two (.inl hnewest)
    · unfold Issued.graced at hgraced
      split at hgraced
      · exact mem_take_two (.inr hgraced)
      · cases hgraced
  · rintro before after rfl h hh hover
    have hsplit : mints heartbeats (before ++ after) =
        mints heartbeats before ++ after.filterMap fun call => call.2.minted? := by
      unfold mints
      rw [List.filterMap_append, List.append_assoc]
    rw [hsplit, List.map_append] at hfresh
    obtain ⟨hbefore, -, hlater⟩ := List.nodup_append.mp hfresh
    have hdistinct := distinct_issued hnodup hbefore
    have hmine : rawToken ∈ h.tokens := by
      rcases hover with htwice | ⟨honce, -⟩
      · exact List.mem_of_mem_drop htwice
      · exact List.mem_of_mem_drop honce
    have hspent : ∀ h' ∈ issued heartbeats before, h'.Spent rawToken := by
      intro h' hh'
      by_cases hsame : h' = h
      · rw [hsame]
        exact Issued.spent_of_over (hdistinct.once h hh) hover
      · refine Issued.spent_of_not_mem fun hboth => ?_
        exact hdistinct.not_shared hh hh' (Ne.symm hsame) hmine hboth
    have hnever : ∀ h' ∈ issued heartbeats (before ++ after), ¬ h'.Live rawToken now := by
      intro h' hh'
      refine (spent_run hspent (fun minted hminted hraw => ?_) h' hh').not_live now
      obtain ⟨old, hold, hraw'⟩ := minted_of_issued hh hmine
      exact hlater _ (List.mem_map_of_mem hold) _ (List.mem_map_of_mem hminted)
        (hraw'.trans hraw.symm)
    constructor
    · rw [Bool.eq_false_iff, ne_eq, hpg]
      rintro ⟨h', hh', -, hlive⟩
      exact hnever h' hh' hlive
    · rw [Bool.eq_false_iff, ne_eq, hmemory]
      rintro ⟨h', hh', hlive⟩
      exact hnever h' hh' hlive

namespace OneJob

/-- SHA-256 of the three tokens. -/
def sha256Hex : String → String
  | "a" => "ca978112ca1bbdcafac231b39a23dc4da786eff8147c4e72b9807785afee48bb"
  | "b" => "3e23e8160039594a33894f6564e1b1348bbd7a0088d42c4acb73eeaed59c009d"
  | "c" => "2e7d2c03a9507ae265ecf5b5356885a53393a2029d241394997265a1a25aefc6"
  | _ => ""

def minted (raw : String) : Minted := ⟨raw, sha256Hex raw, raw⟩

def job : Created := ⟨1, 7, 0, minted "a"⟩

/-- Rotated, and within the grace rotated again. -/
def twice : Calls :=
  [(seconds 10, .rotate 1 7 false (minted "b")), (seconds 20, .rotate 1 7 false (minted "c"))]

def allLive (_ : OrgId) : Bool := true

def allDeleted (_ : OrgId) : Bool := false

end OneJob

open OneJob in
theorem two_tokens_live_rotated :
    Pg.accepts sha256Hex allLive (Pg.run sha256Hex allLive [job] twice) "b" (seconds 30) .success
        none = true ∧
      Pg.accepts sha256Hex allLive (Pg.run sha256Hex allLive [job] twice) "a" (seconds 30) .success
        none = false := by
  have horder : InOrderUntil twice (seconds 30) := by
    unfold InOrderUntil
    decide
  have hlive (rawToken : String) := two_tokens_live sha256Hex allLive [job] twice (seconds 30)
    rawToken .success none (by decide) horder (by decide +kernel) (by decide +kernel)
  refine ⟨(hlive "b" (by decide +kernel)).1.mpr ?_, ?_⟩
  · exact ⟨_, List.mem_singleton_self _, rfl, .inr (by decide +kernel)⟩
  · exact ((hlive "a" (by decide +kernel)).2.2.2 twice [] rfl _ (List.mem_singleton_self _)
      (by decide +kernel)).1

open OneJob in
/-- A job of a deleted organisation has its token, and pings nothing. -/
theorem deleted_org_not_accepted :
    (∃ h ∈ issued [job] [], h.Live "a" 0) ∧
      Pg.accepts sha256Hex allDeleted (Pg.run sha256Hex allDeleted [job] []) "a" 0 .success
        none = false :=
  ⟨⟨_, List.mem_singleton_self _, .inl rfl⟩, by decide +kernel⟩

end Uptimepage.Heartbeat
