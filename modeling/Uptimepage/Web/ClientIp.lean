import Uptimepage.Web.AddrParser

/-!
# The client's address

`web/client_ip.rs`: the address a request came from, read off `X-Forwarded-For` when the peer is
a trusted proxy.  The hops are walked from the right and those of trusted proxies skipped; so is
a hop that is no address, and only the first line of the field is read.  What stands to the left
of the right-most hop that is not a trusted proxy is the sender's own text.
-/

namespace Uptimepage.Web

open Targets (IpAddr)

/-! ## Header values -/

/-- The bytes of a header value, each as the character of its number: no control but the tab. -/
structure HeaderValue where
  text : List Char
  valid : ∀ c ∈ text, (32 ≤ c.toNat ∧ c.toNat < 256 ∧ c.toNat ≠ 127) ∨ c.toNat = 9

def isVisibleAscii (c : Char) : Bool := (32 ≤ c.toNat && c.toNat < 127) || c.toNat == 9

def HeaderValue.toStr? (v : HeaderValue) : Option (List Char) :=
  if v.text.all isVisibleAscii then some v.text else none

/-- The lines of the two fields that are read, each in the order of arrival. -/
structure Headers where
  forwardedFor : List HeaderValue
  realIp : List HeaderValue

/-- `str::trim`, on the characters. -/
def trimChars (s : List Char) : List Char :=
  ((s.dropWhile isWhitespace).reverse.dropWhile isWhitespace).reverse

/-! ## Algorithm -/

section

variable {Net : Type} (contains : Net → IpAddr → Bool) (trusted : List Net)

def isTrusted (ip : IpAddr) : Bool := trusted.any fun n => contains n (toCanonical ip)

def address? (hop : List Char) : Option IpAddr := (parseIpAddr (trimChars hop)).map toCanonical

def clientFromXff (headers : Headers) : Option IpAddr := do
  let line ← headers.forwardedFor.head?
  let raw ← line.toStr?
  let hops := (raw.splitOn ',').filterMap address?
  -- the first untrusted from the right; the leftmost when every hop is trusted
  (hops.reverse.find? fun ip => !isTrusted contains trusted ip).or hops.head?

def realIp? (headers : Headers) : Option IpAddr := do
  let line ← headers.realIp.head?
  let raw ← line.toStr?
  parseIpAddr (trimChars raw)

/-- `extract`. -/
def clientIp (headers : Headers) (peer : IpAddr) : IpAddr :=
  if !isTrusted contains trusted peer then peer
  else
    match clientFromXff contains trusted headers with
    | some ip => ip
    | none =>
      match realIp? headers with
      | some ip => ip
      | none => peer

/-! ## The hops that a proxy recorded -/

/-- The hops of the field, which is its lines one after the other. -/
def Headers.hops (headers : Headers) : List (List Char) :=
  headers.forwardedFor.flatMap fun line => line.text.splitOn ','

/-- A hop that a trusted proxy recorded of another. -/
def isProxy (hop : List Char) : Bool := (address? hop).any (isTrusted contains trusted)

/-- From the right-most hop that is not a trusted proxy, to the end of the field. -/
structure Suffix where
  value : HeaderValue
  client : List Char
  proxies : List (List Char)
  hops_eq : value.text.splitOn ',' = client :: proxies
  not_proxy : isProxy contains trusted client = false
  all_proxies : ∀ hop ∈ proxies, isProxy contains trusted hop = true

variable {contains trusted}

/-- The field ends in the suffix, after hops that anyone may have written. -/
def Suffix.Ends (s : Suffix contains trusted) (headers : Headers) : Prop :=
  ∃ left, headers.hops = left ++ s.client :: s.proxies

/-- The field as it arrives: repeated lines, one line of any bytes, one line of readable text. -/
inductive Arrival
  | lines
  | line
  | text
deriving DecidableEq

def Arrival.Admits : Arrival → Headers → Prop
  | .lines, _ => True
  | .line, headers => ∃ v, headers.forwardedFor = [v]
  | .text, headers => ∃ v raw, headers.forwardedFor = [v] ∧ v.toStr? = some raw

/-- Nothing to the left of the suffix influences the address derived. -/
def NoInfluence (s : Suffix contains trusted) (peer : IpAddr) (realIp : List HeaderValue)
    (arrival : Arrival) : Prop :=
  ∀ h h', arrival.Admits h → arrival.Admits h' → h.realIp = realIp → h'.realIp = realIp →
    s.Ends h → s.Ends h' →
    clientIp contains trusted h peer = clientIp contains trusted h' peer

/-- What is derived when the field says nothing. -/
def fallback (realIp : List HeaderValue) (peer : IpAddr) : IpAddr :=
  (realIp? ⟨[], realIp⟩).getD peer

/-- The condition, for each way the field may arrive. -/
def Sheltered (s : Suffix contains trusted) (peer : IpAddr) (realIp : List HeaderValue) :
    Arrival → Prop
  | .lines => False
  | .line => s.value.toStr? = none ∨ address? s.client = some (fallback realIp peer)
  | .text => s.value.toStr? = none ∨ (address? s.client).isSome = true

/-! ## What is read of a line -/

theorem toStr?_eq_some {v : HeaderValue} {raw : List Char} :
    v.toStr? = some raw ↔ v.text.all isVisibleAscii = true ∧ v.text = raw := by
  unfold HeaderValue.toStr?
  split
  · next h => simp [h]
  · next h => simp [h]

theorem all_splitOn {p : Char → Bool} (hsep : p ',' = true) (text : List Char) :
    text.all p = (text.splitOn ',').all fun hop => hop.all p := by
  induction text with
  | nil => rfl
  | cons c text ih =>
    unfold List.splitOn at ih ⊢
    rw [List.splitOnP_cons_eq_if_modifyHead, List.all_cons, ih]
    by_cases hc : (c == ',') = true
    · rw [if_pos hc, eq_of_beq hc, hsep]
      rfl
    · rw [if_neg hc]
      cases hhops : List.splitOnP (fun x => x == ',') text with
      | nil => exact absurd hhops (List.splitOnP_ne_nil _ _)
      | cons hop hops => simp [Bool.and_assoc]

/-- One value written before another, with a comma between. -/
def HeaderValue.before (left right : HeaderValue) : HeaderValue where
  text := left.text ++ ',' :: right.text
  valid := by
    intro c hc
    rcases List.mem_append.mp hc with hc | hc
    · exact left.valid c hc
    · rcases List.mem_cons.mp hc with rfl | hc
      · exact .inl (by decide)
      · exact right.valid c hc

theorem before_hops (left right : HeaderValue) :
    (left.before right).text.splitOn ',' = left.text.splitOn ',' ++ right.text.splitOn ',' :=
  List.splitOn_append_cons_self _ _

theorem before_toStr? {left right : HeaderValue} {l r : List Char} (hl : left.toStr? = some l)
    (hr : right.toStr? = some r) : (left.before right).toStr? = some (l ++ ',' :: r) := by
  rw [toStr?_eq_some] at hl hr ⊢
  refine ⟨?_, by rw [← hl.2, ← hr.2]; rfl⟩
  show (left.text ++ ',' :: right.text).all isVisibleAscii = true
  rw [List.all_append, List.all_cons, hl.1, hr.1]
  rfl

/-! ## The walk -/

section

variable {peer : IpAddr} {h : Headers} {v : HeaderValue} {more : List HeaderValue}
  {raw : List Char} {ip : IpAddr}

theorem clientIp_of_untrusted (hpeer : isTrusted contains trusted peer = false) (h : Headers) :
    clientIp contains trusted h peer = peer := by
  unfold clientIp
  rw [hpeer]
  rfl

theorem clientIp_of_xff (hpeer : isTrusted contains trusted peer = true)
    (hip : clientFromXff contains trusted h = some ip) :
    clientIp contains trusted h peer = ip := by
  simp [clientIp, hpeer, hip]

theorem clientIp_unread (hpeer : isTrusted contains trusted peer = true)
    (hv : h.forwardedFor = v :: more) (hraw : v.toStr? = none) :
    clientIp contains trusted h peer = fallback h.realIp peer := by
  have hxff : clientFromXff contains trusted h = none := by
    simp [clientFromXff, hv, hraw]
  have hreal : realIp? h = realIp? ⟨[], h.realIp⟩ := rfl
  unfold clientIp fallback
  rw [hpeer, hxff, ← hreal]
  cases realIp? h <;> rfl

theorem clientFromXff_eq (hv : h.forwardedFor = v :: more) (hraw : v.toStr? = some raw) :
    clientFromXff contains trusted h =
      ((((raw.splitOn ',').filterMap address?).reverse.find?
        fun ip => !isTrusted contains trusted ip).or
          ((raw.splitOn ',').filterMap address?).head?) := by
  simp [clientFromXff, hv, hraw]

theorem proxies_trusted (s : Suffix contains trusted) :
    ∀ ip ∈ s.proxies.filterMap address?, isTrusted contains trusted ip = true := by
  intro ip hip
  obtain ⟨hop, hhop, haddress⟩ := List.mem_filterMap.mp hip
  have hproxy := s.all_proxies hop hhop
  unfold isProxy at hproxy
  rw [haddress] at hproxy
  exact hproxy

theorem find?_trusted {ips : List IpAddr}
    (hips : ∀ ip ∈ ips, isTrusted contains trusted ip = true) (rest : List IpAddr) :
    (ips.reverse ++ rest).find? (fun ip => !isTrusted contains trusted ip) =
      rest.find? fun ip => !isTrusted contains trusted ip := by
  have hnone : ips.reverse.find? (fun ip => !isTrusted contains trusted ip) = none := by
    rw [List.find?_eq_none]
    intro ip hip
    simp [hips ip (List.mem_reverse.mp hip)]
  rw [List.find?_append, hnone, Option.none_or]

theorem clientIp_of_client (s : Suffix contains trusted)
    (hpeer : isTrusted contains trusted peer = true) (hv : h.forwardedFor = v :: more)
    (hraw : v.toStr? = some raw) {left : List (List Char)}
    (hhops : raw.splitOn ',' = left ++ s.client :: s.proxies)
    (hip : address? s.client = some ip) : clientIp contains trusted h peer = ip := by
  have huntrusted : isTrusted contains trusted ip = false := by
    have hclient := s.not_proxy
    unfold isProxy at hclient
    rw [hip] at hclient
    exact hclient
  apply clientIp_of_xff hpeer
  rw [clientFromXff_eq hv hraw, hhops, List.filterMap_append, List.filterMap_cons_some hip,
    List.reverse_append, List.reverse_cons, List.append_assoc, find?_trusted (proxies_trusted s),
    List.singleton_append, List.find?_cons_of_pos (by simp [huntrusted])]
  rfl

theorem clientIp_of_leftmost (hpeer : isTrusted contains trusted peer = true)
    (hv : h.forwardedFor = v :: more) (hraw : v.toStr? = some raw) {hop : List Char}
    {rest : List (List Char)} (hhops : raw.splitOn ',' = hop :: rest)
    (hip : address? hop = some ip)
    (hrest : ∀ ip ∈ rest.filterMap address?, isTrusted contains trusted ip = true) :
    clientIp contains trusted h peer = ip := by
  apply clientIp_of_xff hpeer
  rw [clientFromXff_eq hv hraw, hhops, List.filterMap_cons_some hip, List.reverse_cons,
    find?_trusted hrest, List.head?_cons]
  cases htrusted : isTrusted contains trusted ip <;> simp [htrusted]

end

/-! ## What a sender may write -/

/-- A value of its own line, or before the suffix on the suffix's line. -/
def sixes : HeaderValue := ⟨"6.6.6.6".toList, by simp⟩

def sevens : HeaderValue := ⟨"7.7.7.7".toList, by simp⟩

/-- One byte that is not visible ASCII. -/
def garbled : HeaderValue := ⟨[Char.ofNat 255], by simp⟩

section

variable {s : Suffix contains trusted} {peer : IpAddr} {realIp : List HeaderValue} {h : Headers}

variable {v left : HeaderValue} {hop : List Char} {ip : IpAddr}

theorem Suffix.ends_line (hv : h.forwardedFor = [v]) :
    s.Ends h ↔ ∃ left, v.text.splitOn ',' = left ++ s.client :: s.proxies := by
  unfold Suffix.Ends Headers.hops
  rw [hv, List.flatMap_singleton]

theorem Suffix.ends_before (s : Suffix contains trusted) (left : HeaderValue) :
    s.Ends ⟨[left.before s.value], realIp⟩ := by
  rw [Suffix.ends_line rfl, before_hops, s.hops_eq]
  exact ⟨_, rfl⟩

theorem readable_suffix {raw : List Char} (hv : h.forwardedFor = [v]) (hraw : v.toStr? = some raw)
    (hends : s.Ends h) : s.value.toStr? = some s.value.text := by
  obtain ⟨left, hhops⟩ := (Suffix.ends_line hv).mp hends
  have hall := (toStr?_eq_some.1 hraw).1
  rw [all_splitOn (by decide), hhops, List.all_append, Bool.and_eq_true] at hall
  rw [toStr?_eq_some, all_splitOn (by decide), s.hops_eq]
  exact ⟨hall.2, rfl⟩

theorem clientIp_before (hpeer : isTrusted contains trusted peer = true)
    (hleft : left.toStr? = some hop) (hhop : hop.splitOn ',' = [hop])
    (hip : address? hop = some ip) (hraw : s.value.toStr? = some s.value.text)
    (hclient : address? s.client = none) :
    clientIp contains trusted ⟨[left.before s.value], realIp⟩ peer = ip := by
  have hhops : (hop ++ ',' :: s.value.text).splitOn ',' = hop :: s.client :: s.proxies := by
    rw [List.splitOn_append_cons_self, hhop, s.hops_eq, List.singleton_append]
  apply clientIp_of_leftmost hpeer rfl (before_toStr? hleft hraw) hhops hip
  intro ip hmem
  rw [List.filterMap_cons_none hclient] at hmem
  exact proxies_trusted s ip hmem

theorem clientIp_line (hpeer : isTrusted contains trusted peer = true)
    (hleft : left.toStr? = some hop) (hhop : hop.splitOn ',' = [hop])
    (hip : address? hop = some ip) :
    clientIp contains trusted ⟨[left, s.value], realIp⟩ peer = ip :=
  clientIp_of_leftmost hpeer rfl hleft hhop hip nofun

theorem address?_sixes : address? sixes.text = some (.v4 6 6 6 6) := by decide

theorem address?_sevens : address? sevens.text = some (.v4 7 7 7 7) := by decide

theorem not_noInfluence_text (hpeer : isTrusted contains trusted peer = true)
    (hraw : s.value.toStr? = some s.value.text) (hclient : address? s.client = none) :
    ¬NoInfluence s peer realIp .text := by
  intro h
  have hsame := h ⟨[sixes.before s.value], realIp⟩ ⟨[sevens.before s.value], realIp⟩
    ⟨_, _, rfl, before_toStr? rfl hraw⟩ ⟨_, _, rfl, before_toStr? rfl hraw⟩ rfl rfl
    (s.ends_before sixes) (s.ends_before sevens)
  rw [clientIp_before hpeer rfl rfl address?_sixes hraw hclient,
    clientIp_before hpeer rfl rfl address?_sevens hraw hclient] at hsame
  exact absurd hsame (by decide)

theorem noInfluence_text_iff (hpeer : isTrusted contains trusted peer = true) :
    NoInfluence s peer realIp .text ↔ Sheltered s peer realIp .text := by
  constructor
  · intro h
    cases hraw : s.value.toStr? with
    | none => exact .inl hraw
    | some raw =>
      refine .inr ?_
      cases hclient : address? s.client with
      | some ip => rfl
      | none =>
        rw [(toStr?_eq_some.1 hraw).2.symm] at hraw
        exact absurd h (not_noInfluence_text hpeer hraw hclient)
  · rintro hsheltered h h' ⟨v, raw, hv, hraw⟩ ⟨v', raw', hv', hraw'⟩ hreal hreal' hends hends'
    rcases hsheltered with hunread | hclient
    · rw [readable_suffix hv hraw hends] at hunread
      cases hunread
    · obtain ⟨ip, hip⟩ := Option.isSome_iff_exists.mp hclient
      obtain ⟨left, hhops⟩ := (Suffix.ends_line hv).mp hends
      obtain ⟨left', hhops'⟩ := (Suffix.ends_line hv').mp hends'
      rw [(toStr?_eq_some.1 hraw).2] at hhops
      rw [(toStr?_eq_some.1 hraw').2] at hhops'
      rw [clientIp_of_client s hpeer hv hraw hhops hip,
        clientIp_of_client s hpeer hv' hraw' hhops' hip]

theorem noInfluence_line_iff (hpeer : isTrusted contains trusted peer = true) :
    NoInfluence s peer realIp .line ↔ Sheltered s peer realIp .line := by
  constructor
  · intro h
    have htext : NoInfluence s peer realIp .text := by
      rintro h₁ h₂ ⟨v, -, hv, -⟩ ⟨v', -, hv', -⟩
      exact h h₁ h₂ ⟨v, hv⟩ ⟨v', hv'⟩
    rcases (noInfluence_text_iff hpeer).mp htext with hunread | hclient
    · exact .inl hunread
    cases hraw : s.value.toStr? with
    | none => exact .inl hraw
    | some raw =>
      refine .inr ?_
      obtain ⟨ip, hip⟩ := Option.isSome_iff_exists.mp hclient
      have hsame := h ⟨[s.value], realIp⟩ ⟨[garbled.before s.value], realIp⟩ ⟨_, rfl⟩ ⟨_, rfl⟩
        rfl rfl ((Suffix.ends_line rfl).mpr ⟨[], s.hops_eq⟩) (s.ends_before garbled)
      have hhops : raw.splitOn ',' = [] ++ s.client :: s.proxies := by
        rw [← (toStr?_eq_some.1 hraw).2, s.hops_eq, List.nil_append]
      have hgarbled : (garbled.before s.value).toStr? = none := rfl
      rw [clientIp_of_client s hpeer rfl hraw hhops hip, clientIp_unread hpeer rfl hgarbled]
        at hsame
      rw [hip, hsame]
  · intro hsheltered
    have hfallback : ∀ h : Headers, Arrival.line.Admits h → h.realIp = realIp → s.Ends h →
        clientIp contains trusted h peer = fallback realIp peer := by
      rintro h ⟨v, hv⟩ rfl hends
      cases hraw : v.toStr? with
      | none => exact clientIp_unread hpeer hv hraw
      | some raw =>
        rcases hsheltered with hunread | hclient
        · rw [readable_suffix hv hraw hends] at hunread
          cases hunread
        · obtain ⟨left, hhops⟩ := (Suffix.ends_line hv).mp hends
          rw [(toStr?_eq_some.1 hraw).2] at hhops
          exact clientIp_of_client s hpeer hv hraw hhops hclient
    intro h h' hline hline' hreal hreal' hends hends'
    rw [hfallback h hline hreal hends, hfallback h' hline' hreal' hends']

theorem not_noInfluence_lines (hpeer : isTrusted contains trusted peer = true) :
    ¬NoInfluence s peer realIp .lines := by
  have hends (left : HeaderValue) : s.Ends ⟨[left, s.value], realIp⟩ :=
    ⟨left.text.splitOn ',', by simp [Headers.hops, s.hops_eq]⟩
  intro h
  have hsame := h ⟨[sixes, s.value], realIp⟩ ⟨[sevens, s.value], realIp⟩ trivial trivial rfl rfl
    (hends sixes) (hends sevens)
  rw [clientIp_line hpeer rfl rfl address?_sixes, clientIp_line hpeer rfl rfl address?_sevens]
    at hsame
  exact absurd hsame (by decide)

/-- **Who decides the address.**  An untrusted peer's headers have no influence at all.  A
trusted peer's have none to the left of the suffix exactly where the suffix is sheltered: never
when lines may be repeated, and over readable text when its client hop is an address. -/
theorem noInfluence_iff (s : Suffix contains trusted) (peer : IpAddr)
    (realIp : List HeaderValue) (arrival : Arrival) :
    (isTrusted contains trusted peer = false →
      ∀ h h' : Headers, clientIp contains trusted h peer = clientIp contains trusted h' peer) ∧
    (NoInfluence s peer realIp arrival ↔
      isTrusted contains trusted peer = false ∨ Sheltered s peer realIp arrival) := by
  have huntrusted : isTrusted contains trusted peer = false →
      ∀ h h' : Headers, clientIp contains trusted h peer = clientIp contains trusted h' peer := by
    intro hpeer h h'
    rw [clientIp_of_untrusted hpeer h, clientIp_of_untrusted hpeer h']
  refine ⟨huntrusted, ?_⟩
  cases hpeer : isTrusted contains trusted peer with
  | false =>
    have hnone : NoInfluence s peer realIp arrival :=
      fun h h' _ _ _ _ _ _ => huntrusted hpeer h h'
    simp [hnone]
  | true =>
    rw [or_iff_right (by decide)]
    cases arrival with
    | lines => exact iff_of_false (not_noInfluence_lines hpeer) id
    | line => exact noInfluence_line_iff hpeer
    | text => exact noInfluence_text_iff hpeer

end

end

/-! ## A hop that is no address -/

namespace Spoofed

/-- One network, and the proxy in it. -/
def inNet (net ip : IpAddr) : Bool := ip == net

def proxy : IpAddr := .v4 10 0 0 1

def suffix : Suffix inNet [proxy] where
  value := ⟨"1.2.3.4:5678, 10.0.0.1".toList, by simp⟩
  client := "1.2.3.4:5678".toList
  proxies := [" 10.0.0.1".toList]
  hops_eq := by decide
  not_proxy := by decide
  all_proxies := by decide

def request (left : HeaderValue) : Headers := ⟨[left.before suffix.value], []⟩

end Spoofed

/-- A hop with a port is skipped, and what the sender wrote before it is taken. -/
theorem spoofed_by_prefix :
    Spoofed.suffix.Ends (Spoofed.request sixes) ∧ Spoofed.suffix.Ends (Spoofed.request sevens) ∧
    clientIp Spoofed.inNet [Spoofed.proxy] (Spoofed.request sixes) Spoofed.proxy = .v4 6 6 6 6 ∧
    clientIp Spoofed.inNet [Spoofed.proxy] (Spoofed.request sevens) Spoofed.proxy = .v4 7 7 7 7 ∧
    ¬NoInfluence Spoofed.suffix Spoofed.proxy [] .text :=
  ⟨Spoofed.suffix.ends_before sixes, Spoofed.suffix.ends_before sevens, by decide, by decide,
    not_noInfluence_text (by decide) rfl (by decide)⟩

end Uptimepage.Web
