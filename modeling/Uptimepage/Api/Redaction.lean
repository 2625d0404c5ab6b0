import Uptimepage.Domain.CheckResult
import Uptimepage.Text.Delimited
import Uptimepage.Text.Scrub
import Uptimepage.Text.Slice
import Uptimepage.Variables.Interpolate

/-!
# Redaction of what a probe captured

`api/redaction.rs`: the org's secrets are taken out of the evidence of a failed flow by literal
match, and credentials out of the URL it ended on by the shape of their keys.
-/

namespace Uptimepage.Redaction

open Variables (ResolvedVar)

def redacted : List Char := ['*', '*', '*']

/-! ## Secrets -/

def redactSecrets (s : List Char) (secrets : List (List Char)) : List Char :=
  secrets.foldl (fun s secret =>
    if Text.contains secret s then Text.replace secret redacted s else s) s

/-! ## URLs -/

/-- Words that make a key a credential when they stand alone as one of its segments. -/
def secretKeySegments : List (List Char) :=
  ["code".toList, "state".toList, "sid".toList, "jwt".toList, "pw".toList, "otp".toList,
    "ticket".toList, "key".toList, "sig".toList]

/-- Substrings that make a key a credential wherever they appear. -/
def secretParamsContaining : List (List Char) :=
  ["token".toList, "secret".toList, "password".toList, "passwd".toList, "signature".toList,
    "assertion".toList, "session".toList, "apikey".toList, "samlresponse".toList,
    "credential".toList, "bearer".toList]

/-- A lower-case letter or a digit before an upper-case one, or the last of a run of
upper-case ones. -/
def isHump (prev : Option Char) (c : Char) (next : Option Char) : Bool :=
  c.isUpper && (prev.any (fun p => p.isLower || p.isDigit) ||
    prev.any Char.isUpper && next.any Char.isLower)

/-- The words from here on; `word` is the one being read, after `prev`. -/
def keyWordsFrom (prev : Option Char) (word : List Char) : List Char → List (List Char)
  | [] => if word.isEmpty then [] else [word]
  | c :: rest =>
    if c.isAlphanum then
      if isHump prev c rest.head? && !word.isEmpty then
        word :: keyWordsFrom (some c) [c.toLower] rest
      else keyWordsFrom (some c) (word ++ [c.toLower]) rest
    else if word.isEmpty then keyWordsFrom (some c) [] rest
    else word :: keyWordsFrom (some c) [] rest

/-- Splits a key into its words, on punctuation and on camelCase humps alike. -/
def keyWords (key : List Char) : List (List Char) := keyWordsFrom none [] key

def isSecretParam (key : List Char) : Bool :=
  let compact := (key.filter Char.isAlphanum).map Char.toLower
  (secretParamsContaining.any fun s => Text.contains s compact) ||
    (keyWords key).any fun w => secretKeySegments.contains w

def scrubPair (pair : List Char) : List Char :=
  match Delimited.splitOnce '=' pair with
  | some (k, _) => if isSecretParam k then k ++ '=' :: redacted else pair
  | none => pair

/-- Replaces the value of every credential-keyed pair in one `&`-joined list. -/
def scrubPairs (pairs : List Char) : List Char :=
  ['&'].intercalate ((pairs.splitOn '&').map scrubPair)

/-- A hash route carries its own query after its `?`. -/
def scrubFragment (fragment : List Char) : List Char :=
  match Delimited.splitOnce '?' fragment with
  | some (route, params) => route ++ '?' :: scrubPairs params
  | none => if fragment.contains '=' then scrubPairs fragment else fragment

def splitScheme : List Char → Option (List Char × List Char)
  | [] => none
  | c :: s =>
    if [':', '/', '/'].isPrefixOf (c :: s) then some ([], s.drop 2)
    else (splitScheme s).map fun x => (c :: x.1, x.2)

/-- Drops any `user:password@` from the authority of a URL's head. -/
def stripUserinfo (head : List Char) : List Char :=
  match splitScheme head with
  | none => head
  | some (scheme, rest) =>
    let authority := rest.takeWhile (· ≠ '/')
    let path := rest.dropWhile (· ≠ '/')
    match Delimited.afterLast '@' authority with
    | some host => scheme ++ [':', '/', '/'] ++ host ++ path
    | none => head

/-- The head, the query and the fragment of a URL. -/
def urlParts (raw : List Char) : List Char × Option (List Char) × Option (List Char) :=
  let (beforeFragment, fragment) := match Delimited.splitOnce '#' raw with
    | some (b, f) => (b, some f)
    | none => (raw, none)
  let (head, query) := match Delimited.splitOnce '?' beforeFragment with
    | some (h, q) => (h, some q)
    | none => (beforeFragment, none)
  (head, query, fragment)

/-- `url::Url::parse` is asked only whether it accepts. -/
def scrubUrl (parses : List Char → Bool) (raw : List Char) : List Char :=
  let (head, query, fragment) := urlParts raw
  if parses raw then
    stripUserinfo head ++ query.elim [] (fun q => '?' :: scrubPairs q) ++
      fragment.elim [] (fun f => '#' :: scrubFragment f)
  else stripUserinfo head

/-! ## Secrets in any order -/

/-- The replacement text, which comes from no place of the input. -/
def placeholder : List (Char × Option Nat) := redacted.map fun c => (c, none)

/-- `redactSecrets`, with each character that is still there carrying its place in the input. -/
def redactTraced (s : List Char) (secrets : List (List Char)) : List (Char × Option Nat) :=
  secrets.foldl (fun s secret => Text.sweep Prod.fst placeholder [secret] s) (Text.tagged 0 s)

/-- Nothing of an occurrence of a secret is left, and the order does not matter. -/
structure Scrubbed (text : List Char) (secrets : List (List Char)) : Prop where
  gone : ∀ order, order.Perm secrets → ∀ x ∈ secrets, ∀ k, x <+: text.drop k →
    ∀ i, k ≤ i → i < k + x.length → ∀ c, (c, some i) ∉ redactTraced text order
  same : ∀ order, order.Perm secrets → redactSecrets text order = redactSecrets text secrets

/-- Whichever secrets are taken out of the text first, no placeholder is part of an occurrence of
one that is still to be replaced. -/
def Untouched (text : List Char) (secrets : List (List Char)) : Prop :=
  ∀ before x, (before ++ [x]).Subperm secrets →
    Text.Clear Prod.fst (fun b => b.2 ≠ none) x
      (Text.sweep Prod.fst placeholder before (Text.tagged 0 text))

section

variable {text : List Char} {secrets order : List (List Char)}

theorem ne_nil_of_long (hlong : ∀ x ∈ secrets, 4 ≤ Text.byteLen x) : ∀ x ∈ secrets, x ≠ [] := by
  rintro x hx rfl
  exact absurd (hlong [] hx) (by decide)

theorem map_fst_sweep (x : List Char) (t : List (Char × Option Nat)) :
    (Text.sweep Prod.fst placeholder [x] t).map Prod.fst =
      if Text.contains x (t.map Prod.fst) then Text.replace x redacted (t.map Prod.fst)
      else t.map Prod.fst := by
  split
  · exact Text.map_sweep_singleton 0 t
  · next hnot =>
    rw [Text.sweep_of_not_infix]
    intro p hp hin
    obtain rfl := List.mem_singleton.mp hp
    exact hnot (Text.contains_iff.2 hin)

theorem map_fst_foldl (order : List (List Char)) (t : List (Char × Option Nat)) :
    (order.foldl (fun s x => Text.sweep Prod.fst placeholder [x] s) t).map Prod.fst =
      redactSecrets (t.map Prod.fst) order := by
  unfold redactSecrets
  induction order generalizing t with
  | nil => rfl
  | cons x order ih => rw [List.foldl_cons, List.foldl_cons, ih, map_fst_sweep]

theorem map_fst_redactTraced : (redactTraced text order).map Prod.fst = redactSecrets text order := by
  rw [redactTraced, map_fst_foldl, Text.map_fst_tagged]

theorem placeholder_placeless : ∀ m ∈ placeholder, m.2 = none := by
  intro m hm
  obtain ⟨c, -, rfl⟩ := List.mem_map.mp hm
  rfl

theorem redactTraced_eq_sweep (hlong : ∀ x ∈ order, 4 ≤ Text.byteLen x)
    (hapart : Text.Apart order text) (huntouched : Untouched text order) :
    redactTraced text order =
      Text.sweep Prod.fst placeholder order (Text.tagged 0 text) := by
  have hfold : order.foldl (fun s x => Text.sweep Prod.fst placeholder [x] s)
      (Text.sweep Prod.fst placeholder [] (Text.tagged 0 text)) =
      Text.sweep Prod.fst placeholder ([] ++ order) (Text.tagged 0 text) :=
    Text.foldl_sweep (fun b => b.2 ≠ none)
      (fun m hm hsome => hsome (placeholder_placeless m hm)) (by decide) (ne_nil_of_long hlong)
      (fun before x hpre => huntouched before x hpre.sublist.subperm)
      (by rw [Text.map_fst_tagged]; exact hapart)
  rw [Text.sweep_no_pats] at hfold
  exact hfold

theorem scrubbed_of_separate (hlong : ∀ x ∈ secrets, 4 ≤ Text.byteLen x)
    (hapart : Text.Apart secrets text) (huntouched : Untouched text secrets) :
    Scrubbed text secrets := by
  have horder : ∀ order : List (List Char), order.Perm secrets → redactTraced text order =
      Text.sweep Prod.fst placeholder order (Text.tagged 0 text) := by
    intro order hperm
    apply redactTraced_eq_sweep (fun x hx => hlong x (hperm.mem_iff.mp hx))
      (hapart.mono fun x hx => hperm.mem_iff.mp hx)
    exact fun before x hsub => huntouched before x (hsub.trans hperm.subperm)
  constructor
  · intro order hperm x hx k hat i hle hlt c hmem
    rw [horder order hperm] at hmem
    apply Text.not_covered_of_mem_sweep _ _ (hapart.mono fun y hy => hperm.mem_iff.mp hy) hmem x
      (hperm.mem_iff.mpr hx) k hat ⟨by omega, by omega⟩
    · exact placeholder_placeless
    · exact fun y hy => ne_nil_of_long hlong y (hperm.mem_iff.mp hy)
  · intro order hperm
    rw [← map_fst_redactTraced, ← map_fst_redactTraced, horder order hperm,
      horder secrets (List.Perm.refl _)]
    congr 1
    apply Text.sweep_congr (fun x => hperm.mem_iff)
      (fun x hx => ne_nil_of_long hlong x (hperm.mem_iff.mp hx))
    rw [Text.map_fst_tagged]
    exact hapart.mono fun x hx => hperm.mem_iff.mp hx

/-! ## Secrets that overlap -/

theorem free_of_star {x : List Char} (hstar : '*' ∉ x) :
    ∀ c ∈ x, c ∉ placeholder.map Prod.fst := by
  rintro c hc hmem
  have hc' : c = '*' := by simpa [placeholder, redacted] using hmem
  exact hstar (hc' ▸ hc)

theorem untouched_of_star (hstar : ∀ x ∈ secrets, '*' ∉ x) : Untouched text secrets := by
  intro before x hsub k hat b hb hnone
  have hx : x ∈ secrets := hsub.subset (List.mem_append_right _ List.mem_cons_self)
  have hmem : b.1 ∈ x := by
    rw [List.prefix_iff_eq_take.mp hat, ← List.map_drop, ← List.map_take]
    exact List.mem_map_of_mem hb
  rcases Text.mem_of_mem_sweep (List.mem_of_mem_drop (List.mem_of_mem_take hb)) with hin | hin
  · exact free_of_star (hstar x hx) _ hmem (List.mem_map_of_mem hin)
  · exact Text.ne_none_of_mem_tagged hin hnone

theorem foldl_sweep_of_not_infix {t : List (Char × Option Nat)}
    (h : ∀ x ∈ order, ¬ x <:+: t.map Prod.fst) :
    order.foldl (fun s x => Text.sweep Prod.fst placeholder [x] s) t = t := by
  induction order with
  | nil => rfl
  | cons x order ih =>
    rw [List.foldl_cons, Text.sweep_of_not_infix, ih fun y hy => h y (List.mem_cons_of_mem x hy)]
    intro p hp
    rw [List.mem_singleton.mp hp]
    exact h x List.mem_cons_self

theorem sweep_prefix {x : List Char} (hx : x ≠ []) (n : Nat) (hpre : x <+: text) :
    Text.sweep Prod.fst placeholder [x] (Text.tagged n text) =
      placeholder ++ Text.sweep Prod.fst placeholder [x]
        (Text.tagged (n + x.length) (text.drop x.length)) := by
  have hocc : x <+: (Text.tagged n text).map Prod.fst := by rwa [Text.map_fst_tagged]
  have hfind : [x].find? (fun p => p.isPrefixOf ((Text.tagged n text).map Prod.fst)) = some x := by
    rw [List.find?_cons, List.isPrefixOf_iff_prefix.mpr hocc]
  rw [Text.sweep_of_find (Text.ne_nil_of_occurs hx hocc) hfind hx, Text.tagged_drop]

variable (hlong : ∀ x ∈ secrets, 4 ≤ Text.byteLen x) (hstar : ∀ x ∈ secrets, '*' ∉ x)
  (h : ∀ text, Scrubbed text secrets)

include hlong hstar h

theorem eq_of_infix {u z : List Char} (hu : u ∈ secrets) (hz : z ∈ secrets) (hin : u <:+: z) :
    u = z := by
  by_contra hne
  have hu0 := ne_nil_of_long hlong u hu
  have hz0 := ne_nil_of_long hlong z hz
  have hfirst : redactTraced z (z :: secrets.erase z) = placeholder := by
    rw [redactTraced, List.foldl_cons, sweep_prefix hz0 0 (List.prefix_refl z), List.drop_length]
    rw [show Text.sweep Prod.fst placeholder [z] (Text.tagged (0 + z.length) []) = [] from rfl,
      List.append_nil]
    apply foldl_sweep_of_not_infix
    intro x hx hinf
    have hx' := List.mem_of_mem_erase hx
    have hx0 := ne_nil_of_long hlong x hx'
    rw [← List.append_nil (placeholder.map Prod.fst)] at hinf
    exact hx0 (List.infix_nil.mp
      (Text.infix_of_infix_append (free_of_star (hstar x hx')) hx0 hinf))
  obtain ⟨a, o, b, hsplit, ho, hsweep⟩ : ∃ a o b, Text.tagged 0 z = a ++ (o ++ b) ∧
      o.map Prod.fst = u ∧ Text.sweep Prod.fst placeholder [u] (Text.tagged 0 z) =
        a ++ (placeholder ++ Text.sweep Prod.fst placeholder [u] b) :=
    Text.exists_sweep_eq hu0 (by rwa [Text.map_fst_tagged])
  have hbeside : a ++ Text.sweep Prod.fst placeholder [u] b ≠ [] := by
    intro hnil
    obtain ⟨rfl, hb⟩ := List.append_eq_nil_iff.mp hnil
    have hb0 : b = [] := by
      by_contra hb0
      exact Text.sweep_ne_nil (by decide) (fun p hp => List.mem_singleton.mp hp ▸ hu0) hb0 hb
    apply hne
    rw [← ho, ← Text.map_fst_tagged 0 z, hsplit, hb0, List.nil_append, List.append_nil]
  have hrest : ∀ x ∈ secrets.erase u, x ∈ secrets := fun x hx => List.mem_of_mem_erase hx
  obtain ⟨a', b', hbeside', hfold⟩ := Text.foldl_sweep_beside (by decide)
    (fun x hx => ne_nil_of_long hlong x (hrest x hx))
    (fun x hx => free_of_star (hstar x (hrest x hx))) hbeside
  have hsecond : redactTraced z (u :: secrets.erase u) = a' ++ (placeholder ++ b') := by
    rw [redactTraced, List.foldl_cons, hsweep, hfold]
  have hsame := ((h z).same _ (List.perm_cons_erase hz).symm).trans
    ((h z).same _ (List.perm_cons_erase hu).symm).symm
  rw [← map_fst_redactTraced, ← map_fst_redactTraced, hfirst, hsecond] at hsame
  have hlen := congrArg List.length hsame
  simp only [List.length_map, List.length_append] at hlen
  apply hbeside'
  rw [List.append_eq_nil_iff, ← List.length_eq_zero_iff, ← List.length_eq_zero_iff]
  omega

theorem not_overlap {x y : List Char} (hx : x ∈ secrets) (hy : y ∈ secrets) {k : Nat}
    (hkx : k < x.length) (hlong' : x.length < k + y.length) {t : List Char}
    (hxt : x <+: t) (hyt : y <+: t.drop k) (ht : t.length = k + y.length) : False := by
  have hx0 := ne_nil_of_long hlong x hx
  -- what is left of the second occurrence
  have hrest : t.drop x.length <:+: y := by
    have hdrop : t.drop k = y :=
      (hyt.eq_of_length (by rw [List.length_drop]; omega)).symm
    have heq : t.drop x.length = y.drop (x.length - k) := by
      rw [← hdrop, List.drop_drop]
      congr 1
      omega
    rw [heq]
    exact (List.drop_suffix _ _).isInfix
  have hrestlen : (t.drop x.length).length < y.length := by
    rw [List.length_drop]
    omega
  have hnone : ∀ u ∈ secrets, ¬ u <:+: t.drop x.length := by
    intro u hu hin
    have heq := eq_of_infix hlong hstar h hu hy (hin.trans hrest)
    have hle := hin.length_le
    rw [heq] at hle
    omega
  have htraced : redactTraced t (x :: secrets.erase x) =
      placeholder ++ Text.tagged x.length (t.drop x.length) := by
    rw [redactTraced, List.foldl_cons, sweep_prefix hx0 0 hxt, Nat.zero_add,
      Text.sweep_of_not_infix]
    · apply foldl_sweep_of_not_infix
      intro u hu hin
      have hu' := List.mem_of_mem_erase hu
      rw [List.map_append, Text.map_fst_tagged] at hin
      exact hnone u hu' (Text.infix_of_infix_append (free_of_star (hstar u hu'))
        (ne_nil_of_long hlong u hu') hin)
    · intro p hp
      rw [Text.map_fst_tagged, List.mem_singleton.mp hp]
      exact hnone x hx
  cases hr : t.drop x.length with
  | nil =>
    rw [List.drop_eq_nil_iff] at hr
    omega
  | cons c r =>
    apply (h t).gone _ (List.perm_cons_erase hx).symm y hy k hyt x.length (by omega) (by omega) c
    rw [htraced, hr]
    exact List.mem_append_right _ List.mem_cons_self

theorem apart_of_le {x y : List Char} (hx : x ∈ secrets) (hy : y ∈ secrets) {i j : Nat}
    (hi : x <+: text.drop i) (hj : y <+: text.drop j) (hle : i ≤ j) (hover : j < i + x.length) :
    x = y ∧ i = j := by
  obtain ⟨k, rfl⟩ := Nat.exists_eq_add_of_le hle
  rw [← List.drop_drop] at hj
  have hx0 := List.length_pos_iff.mpr (ne_nil_of_long hlong x hx)
  rcases Nat.lt_or_ge x.length (k + y.length) with hlong' | hinside
  · exfalso
    have hylen := hj.length_le
    rw [List.length_drop] at hylen
    have hy0 := List.length_pos_iff.mpr (ne_nil_of_long hlong y hy)
    apply not_overlap hlong hstar h hx hy (k := k) (by omega) hlong'
      (t := (text.drop i).take (k + y.length))
    · exact List.prefix_take_iff.mpr ⟨hi, by omega⟩
    · rw [List.drop_take]
      exact List.prefix_take_iff.mpr ⟨hj, by omega⟩
    · rw [List.length_take]
      omega
  · -- the second one is inside the first
    have hin : y <:+: x := by
      obtain ⟨r, hr⟩ := hi
      rw [← hr, List.drop_append_of_le_length (by omega)] at hj
      have hpre : y <+: x.drop k := List.prefix_of_prefix_length_le hj (List.prefix_append _ _)
        (by rw [List.length_drop]; omega)
      exact hpre.isInfix.trans (List.drop_suffix k x).isInfix
    have heq := eq_of_infix hlong hstar h hy hx hin
    rw [heq] at hinside
    exact ⟨heq.symm, by omega⟩

theorem separate_of_scrubbed : Text.Apart secrets text := by
  intro x hx y hy i j hi hj
  by_cases hxy : i + x.length ≤ j
  · exact .inr (.inl hxy)
  · by_cases hyx : j + y.length ≤ i
    · exact .inr (.inr hyx)
    · left
      rcases Nat.le_total i j with hle | hle
      · exact apart_of_le hlong hstar h hx hy hi hj hle (by omega)
      · obtain ⟨rfl, rfl⟩ := apart_of_le hlong hstar h hy hx hj hi hle (by omega)
        exact ⟨rfl, rfl⟩

end

/-- A text in which no two occurrences of secrets overlap and no placeholder gets into one is
scrubbed whatever the order, and a list of secrets is scrubbed from every text only when its secrets
overlap in none. -/
theorem scrubbed_when_separate (secrets : List (List Char))
    (hlong : ∀ x ∈ secrets, 4 ≤ Text.byteLen x) :
    (∀ text, Text.Apart secrets text → Untouched text secrets → Scrubbed text secrets) ∧
    ((∀ x ∈ secrets, '*' ∉ x) →
      (∀ text, Untouched text secrets) ∧
      ((∀ text, Scrubbed text secrets) ↔ ∀ text, Text.Apart secrets text)) := by
  refine ⟨fun text hapart huntouched => scrubbed_of_separate hlong hapart huntouched, ?_⟩
  intro hstar
  refine ⟨fun text => untouched_of_star hstar, fun h text => separate_of_scrubbed hlong hstar h, ?_⟩
  exact fun hapart text => scrubbed_of_separate hlong (hapart text) (untouched_of_star hstar)

namespace One

def short : List Char := ['a', 'b', 'c', 'd']

def long : List Char := ['a', 'b', 'c', 'd', 'e', 'f']

def other : List Char := ['w', 'x', 'y', 'z']

end One

/-- One secret after the other. -/
theorem scrubbed_when_separate_two : Scrubbed (One.short ++ One.other) [One.short, One.other] := by
  have hplace : ∀ p ∈ [One.short, One.other], ∀ i, p <+: (One.short ++ One.other).drop i →
      i = if p = One.short then 0 else 4 := by
    intro p hp i hat
    have hbound := hat.length_le
    rw [List.length_drop] at hbound
    have hlen : p.length = 4 := by
      rcases List.mem_pair.mp hp with rfl | rfl <;> rfl
    have hi : i < 5 := by
      have : (One.short ++ One.other).length = 8 := rfl
      omega
    have hall : ∀ p ∈ [One.short, One.other], ∀ i < 5,
        p <+: (One.short ++ One.other).drop i → i = if p = One.short then 0 else 4 := by decide
    exact hall p hp i hi hat
  have hapart : Text.Apart [One.short, One.other] (One.short ++ One.other) := by
    intro p hp q hq i j hi hj
    obtain rfl := hplace p hp i hi
    obtain rfl := hplace q hq j hj
    rcases List.mem_pair.mp hp with rfl | rfl <;> rcases List.mem_pair.mp hq with rfl | rfl <;>
      decide
  have hall := scrubbed_when_separate [One.short, One.other] (by decide)
  exact hall.1 _ hapart ((hall.2 (by decide)).1 _)

/-- A secret that begins another one: in one order the rest of the longer one stays in clear,
in the other it does not. -/
theorem prefix_leaves_rest : ¬ Scrubbed One.long [One.short, One.long] := by
  intro h
  have hsame := h.same [One.long, One.short] (List.Perm.swap _ _ _)
  revert hsame
  decide

end Uptimepage.Redaction
