import Uptimepage.Api.Redaction
import Uptimepage.Web.UrlStandard

/-!
# A URL without its credentials

What `scrub_url` leaves of a URL against what it should: the URL without the credentials of its
authority, as the URL Standard finds it, and without the values of the credential-keyed pairs of
its query and of its fragment.  The code cuts the text by hand.
-/

namespace Uptimepage.Redaction

open UrlStandard

/-! ## What should be left -/

def assemble (head : List Char) (query fragment : Option (List Char)) : List Char :=
  head ++ query.elim [] (fun q => '?' :: q) ++ fragment.elim [] (fun f => '#' :: f)

/-- The pairs of a fragment stand before its first `?` and after it. -/
def cleanFragment (fragment : List Char) : List Char :=
  match Delimited.splitOnce '?' fragment with
  | some (route, params) => scrubPairs route ++ '?' :: scrubPairs params
  | none => scrubPairs fragment

def clean (raw : List Char) : List Char :=
  let (head, query, fragment) := urlParts raw
  assemble (stripCredentials head) (query.map scrubPairs) (fragment.map cleanFragment)

/-- Only the credentials are gone, and nothing is left to scrub. -/
structure ScrubbedClean (parses : List Char → Bool) (raw : List Char) : Prop where
  exact : scrubUrl parses raw = clean raw
  idem : scrubUrl parses (scrubUrl parses raw) = scrubUrl parses raw

/-- What `url::Url::parse` is documented to do: nothing in a query or a fragment makes it refuse
a URL, and neither does the absence of credentials. -/
structure Accepts (parses : List Char → Bool) : Prop where
  tail : ∀ head (query fragment : Option (List Char)) (f g : List Char → List Char),
    '?' ∉ head → '#' ∉ head → (∀ q ∈ query, '#' ∉ q ∧ '#' ∉ f q) →
    parses (assemble head query fragment) = true →
    parses (assemble head (query.map f) (fragment.map g)) = true
  credentials : ∀ head query fragment, '?' ∉ head → '#' ∉ head →
    parses (assemble head query fragment) = true →
    parses (assemble (stripCredentials head) query fragment) = true

/-! ## When it is -/

/-- The authority opens right after the first `://` and no `@` follows it before the next `/`;
or the URL has no credentials, and no `@` stands between its first `://` and the next `/`. -/
def HeadPlain (head : List Char) : Prop :=
  (∃ scheme authority after, authority? head = some (scheme ++ [':', '/', '/'], authority, after) ∧
    '@' ∈ authority ∧ '@' ∉ after.takeWhile (· ≠ '/')) ∨
  ¬ HasCredentials head ∧ ∀ scheme rest, splitScheme head = some (scheme, rest) →
    '@' ∉ rest.takeWhile (· ≠ '/')

def PairsPlain (pairs : List Char) : Prop :=
  ∀ pair ∈ pairs.splitOn '&', ∀ k v, Delimited.splitOnce '=' pair = some (k, v) →
    isSecretParam k = true → v = redacted

/-- No credential-keyed pair stands before the fragment's `?`. -/
def FragmentPlain (fragment : List Char) : Prop :=
  ∀ route params, Delimited.splitOnce '?' fragment = some (route, params) → PairsPlain route

section

variable {head a b s : List Char} {parses : List Char → Bool} {raw : List Char}

/-! ## Pairs -/

variable {k pair v user rest scheme before : List Char} {c : Char}

theorem scrubPair_of_some (h : Delimited.splitOnce '=' pair = some (k, v)) :
    scrubPair pair = if isSecretParam k then k ++ '=' :: redacted else pair := by
  rw [scrubPair, h]

theorem splitOnce_scrubbed (h : Delimited.splitOnce '=' pair = some (k, v)) :
    Delimited.splitOnce '=' (k ++ '=' :: redacted) = some (k, redacted) :=
  Delimited.splitOnce_eq_some_iff.2 ⟨rfl, (Delimited.splitOnce_eq_some_iff.1 h).2⟩

theorem mem_scrubPair (h : c ∈ scrubPair pair) : c ∈ pair ∨ c = '*' := by
  unfold scrubPair at h
  split at h
  · next k v hsplit =>
    split at h
    · obtain ⟨rfl, -⟩ := Delimited.splitOnce_eq_some_iff.1 hsplit
      simp only [redacted, List.mem_append, List.mem_cons, List.not_mem_nil, or_false] at h
      rcases h with h | rfl | rfl | rfl | rfl
      · exact .inl (List.mem_append_left _ h)
      · exact .inl (List.mem_append_right _ List.mem_cons_self)
      · exact .inr rfl
      · exact .inr rfl
      · exact .inr rfl
    · exact .inl h
  · exact .inl h

theorem scrubPair_idem (pair : List Char) : scrubPair (scrubPair pair) = scrubPair pair := by
  cases hsplit : Delimited.splitOnce '=' pair with
  | none =>
    have hsame : scrubPair pair = pair := by rw [scrubPair, hsplit]
    rw [hsame, hsame]
  | some kv =>
    obtain ⟨k, v⟩ := kv
    rw [scrubPair_of_some hsplit]
    split
    · next hk => rw [scrubPair_of_some (splitOnce_scrubbed hsplit), if_pos hk]
    · next hk => rw [scrubPair_of_some hsplit, if_neg hk]

theorem splitOn_scrubPairs (s : List Char) :
    (scrubPairs s).splitOn '&' = (s.splitOn '&').map scrubPair := by
  unfold scrubPairs
  apply List.splitOn_intercalate
  · intro l hl hmem
    obtain ⟨pair, hpair, rfl⟩ := List.mem_map.mp hl
    rcases mem_scrubPair hmem with hmem | hmem
    · exact Delimited.not_mem_of_mem_splitOn hpair hmem
    · cases hmem
  · intro hnil
    exact List.splitOn_ne_nil '&' s (List.map_eq_nil_iff.mp hnil)

theorem scrubPairs_inj {s' : List Char}
    (h : (s.splitOn '&').map scrubPair = s'.splitOn '&') : scrubPairs s = s' := by
  unfold scrubPairs
  rw [h, List.intercalate_splitOn]

theorem scrubPairs_idem (s : List Char) : scrubPairs (scrubPairs s) = scrubPairs s := by
  apply scrubPairs_inj
  rw [splitOn_scrubPairs, List.map_map]
  apply List.map_congr_left
  intro pair _
  exact scrubPair_idem pair

theorem map_scrubPair_eq_self_iff {pairs : List (List Char)} :
    pairs.map scrubPair = pairs ↔ ∀ pair ∈ pairs, scrubPair pair = pair := by
  induction pairs with
  | nil => simp
  | cons pair pairs ih => rw [List.map_cons, List.cons.injEq, ih, List.forall_mem_cons]

theorem scrubPairs_eq_self_iff : scrubPairs s = s ↔ PairsPlain s := by
  have hpairs : scrubPairs s = s ↔ ∀ pair ∈ s.splitOn '&', scrubPair pair = pair := by
    rw [← map_scrubPair_eq_self_iff]
    constructor
    · intro h
      rw [← splitOn_scrubPairs, h]
    · exact scrubPairs_inj
  rw [hpairs]
  unfold PairsPlain
  apply forall₂_congr
  intro pair _
  constructor
  · intro h k v hsplit hk
    rw [scrubPair_of_some hsplit, if_pos hk] at h
    have hsame := splitOnce_scrubbed hsplit
    rw [h, hsplit] at hsame
    cases hsame
    rfl
  · intro h
    cases hsplit : Delimited.splitOnce '=' pair with
    | none => rw [scrubPair, hsplit]
    | some kv =>
      obtain ⟨k, v⟩ := kv
      rw [scrubPair_of_some hsplit]
      split
      · next hk =>
        rw [← h k v hsplit hk]
        exact (Delimited.splitOnce_eq_some_iff.1 hsplit).1.symm
      · rfl

theorem pairsPlain_of_not_mem (h : '=' ∉ s) : PairsPlain s := by
  intro pair hpair k v hsplit
  exfalso
  apply h
  apply Delimited.mem_of_mem_splitOn hpair
  rw [(Delimited.splitOnce_eq_some_iff.1 hsplit).1]
  exact List.mem_append_right _ List.mem_cons_self

theorem mem_scrubPairs (h : c ∈ scrubPairs s) : c ∈ s ∨ c = '*' ∨ c = '&' := by
  rcases Delimited.mem_of_mem_join h with rfl | ⟨x, hx, hc⟩
  · exact .inr (.inr rfl)
  · obtain ⟨pair, hpair, rfl⟩ := List.mem_map.mp hx
    rcases mem_scrubPair hc with hc | rfl
    · exact .inl (Delimited.mem_of_mem_splitOn hpair hc)
    · exact .inr (.inl rfl)

/-! ## The fragment -/

theorem scrubFragment_eq_iff {f : List Char} :
    scrubFragment f = cleanFragment f ↔ FragmentPlain f := by
  unfold scrubFragment cleanFragment FragmentPlain
  cases hsplit : Delimited.splitOnce '?' f with
  | some parts =>
    obtain ⟨route, params⟩ := parts
    dsimp only
    rw [List.append_left_inj, eq_comm, scrubPairs_eq_self_iff]
    constructor
    · rintro h _ _ ⟨⟩
      exact h
    · intro h
      exact h route params rfl
  | none =>
    dsimp only
    refine iff_of_true ?_ (by rintro _ _ ⟨⟩)
    split
    · rfl
    · next heq =>
      have hplain : PairsPlain f := pairsPlain_of_not_mem (by simpa using heq)
      rw [scrubPairs_eq_self_iff.2 hplain]

theorem scrubFragment_idem (f : List Char) : scrubFragment (scrubFragment f) = scrubFragment f := by
  cases hsplit : Delimited.splitOnce '?' f with
  | some parts =>
    obtain ⟨route, params⟩ := parts
    have hscrubbed : scrubFragment f = route ++ '?' :: scrubPairs params := by
      rw [scrubFragment, hsplit]
    have hagain : Delimited.splitOnce '?' (route ++ '?' :: scrubPairs params) =
        some (route, scrubPairs params) :=
      Delimited.splitOnce_eq_some_iff.2 ⟨rfl, (Delimited.splitOnce_eq_some_iff.1 hsplit).2⟩
    rw [hscrubbed, scrubFragment, hagain]
    dsimp only
    rw [scrubPairs_idem]
  | none =>
    have hscrubbed : scrubFragment f = if f.contains '=' then scrubPairs f else f := by
      rw [scrubFragment, hsplit]
    split at hscrubbed
    · have hagain : Delimited.splitOnce '?' (scrubPairs f) = none := by
        rw [Delimited.splitOnce_eq_none_iff] at hsplit ⊢
        intro hmem
        rcases mem_scrubPairs hmem with hmem | hmem | hmem
        · exact hsplit hmem
        · exact absurd hmem (by decide)
        · exact absurd hmem (by decide)
      rw [hscrubbed, scrubFragment, hagain]
      dsimp only
      split
      · exact scrubPairs_idem f
      · rfl
    · rw [hscrubbed, hscrubbed]

/-! ## The head -/

theorem eq_of_splitScheme (h : splitScheme head = some (a, b)) :
    head = a ++ ([':', '/', '/'] ++ b) := by
  induction head generalizing a with
  | nil => cases h
  | cons c s ih =>
    unfold splitScheme at h
    split at h
    · next hpre =>
      cases h
      obtain ⟨r, hr⟩ := List.isPrefixOf_iff_prefix.mp hpre
      cases hr
      rfl
    · obtain ⟨⟨a', b'⟩, hsome, heq⟩ := Option.map_eq_some_iff.mp h
      cases heq
      rw [ih hsome]
      rfl

theorem splitScheme_of_not_mem (h : ':' ∉ a) (b : List Char) :
    splitScheme (a ++ ([':', '/', '/'] ++ b)) = some (a, b) := by
  induction a with
  | nil => rfl
  | cons c a ih =>
    obtain ⟨hc, ha⟩ := not_or.mp (mt List.mem_cons.mpr h)
    rw [List.cons_append, splitScheme, ih ha, if_neg]
    · rfl
    · intro hpre
      obtain ⟨r, hr⟩ := List.isPrefixOf_iff_prefix.mp hpre
      exact hc (List.head_eq_of_cons_eq hr)

theorem splitScheme_replace (h : splitScheme head = some (a, b)) (b' : List Char) :
    splitScheme (a ++ ([':', '/', '/'] ++ b')) = some (a, b') := by
  induction head generalizing a with
  | nil => cases h
  | cons c s ih =>
    have heq := eq_of_splitScheme h
    unfold splitScheme at h
    split at h
    · cases h
      rfl
    · next hpre =>
      obtain ⟨⟨a', b''⟩, hsome, hcons⟩ := Option.map_eq_some_iff.mp h
      cases hcons
      rw [List.cons_append, splitScheme, ih hsome, if_neg]
      · rfl
      · intro hpre'
        apply hpre
        rw [heq]
        -- the three characters in question stand before `b`
        match a' with
        | [] => exact absurd hpre' (by simp)
        | [d] => exact absurd hpre' (by simp)
        | d :: e :: a' => simpa using hpre'

theorem takeWhile_slash (h : '/' ∉ a) (b : List Char) :
    (a ++ b).takeWhile (· ≠ '/') = a ++ b.takeWhile (· ≠ '/') := by
  apply List.takeWhile_append_of_pos
  intro c hc
  have hne : c ≠ '/' := by
    rintro rfl
    exact h hc
  simpa using hne

theorem slash_not_mem (s : List Char) : '/' ∉ s.takeWhile (· ≠ '/') := by
  intro hmem
  simpa using List.mem_takeWhile_imp hmem

theorem takeWhile_dropWhile_slash (s : List Char) :
    (s.dropWhile (· ≠ '/')).takeWhile (· ≠ '/') = [] := by
  have hwhole := takeWhile_slash (slash_not_mem s) (s.dropWhile (· ≠ '/'))
  rw [List.takeWhile_append_dropWhile] at hwhole
  exact List.self_eq_append_right.mp hwhole

theorem stripUserinfo_cases (head : List Char) :
    (stripUserinfo head = head ∧ ∀ scheme rest, splitScheme head = some (scheme, rest) →
      '@' ∉ rest.takeWhile (· ≠ '/')) ∨
    ∃ scheme user rest, splitScheme head = some (scheme, user ++ '@' :: rest) ∧ '/' ∉ user ∧
      '@' ∉ rest.takeWhile (· ≠ '/') ∧
      stripUserinfo head = scheme ++ ([':', '/', '/'] ++ rest) := by
  unfold stripUserinfo
  cases hsplit : splitScheme head with
  | none => exact .inl ⟨rfl, by rintro _ _ ⟨⟩⟩
  | some parts =>
    obtain ⟨scheme, rest⟩ := parts
    dsimp only
    cases hlast : Delimited.afterLast '@' (rest.takeWhile (· ≠ '/')) with
    | none =>
      refine .inl ⟨rfl, ?_⟩
      rintro _ _ ⟨⟩
      exact Delimited.afterLast_eq_none_iff.1 hlast
    | some host =>
      obtain ⟨user, hauthority, hhost⟩ := Delimited.afterLast_eq_some_iff.1 hlast
      have hslash := slash_not_mem rest
      rw [hauthority, List.mem_append, List.mem_cons] at hslash
      obtain ⟨huser, hslash⟩ := not_or.mp hslash
      have hrest : user ++ '@' :: (host ++ rest.dropWhile (· ≠ '/')) = rest := by
        have hwhole : rest.takeWhile (· ≠ '/') ++ rest.dropWhile (· ≠ '/') = rest :=
          List.takeWhile_append_dropWhile
        rw [hauthority, List.append_assoc, List.cons_append] at hwhole
        exact hwhole
      refine .inr ⟨scheme, user, host ++ rest.dropWhile (· ≠ '/'), by rw [hrest], huser, ?_, ?_⟩
      · rw [takeWhile_slash (not_or.mp hslash).2, takeWhile_dropWhile_slash, List.append_nil]
        exact hhost
      · simp only [List.append_assoc]

theorem takeWhile_user (huser : '/' ∉ user) (rest : List Char) :
    (user ++ '@' :: rest).takeWhile (· ≠ '/') = user ++ '@' :: rest.takeWhile (· ≠ '/') := by
  rw [takeWhile_slash huser, List.takeWhile_cons_of_pos (by decide)]

theorem stripUserinfo_of_split (h : splitScheme head = some (scheme, user ++ '@' :: rest))
    (huser : '/' ∉ user) (hrest : '@' ∉ rest.takeWhile (· ≠ '/')) :
    stripUserinfo head = scheme ++ ([':', '/', '/'] ++ rest) := by
  rcases stripUserinfo_cases head with ⟨-, hnone⟩ | ⟨scheme', user', rest', h', huser', hrest', hres⟩
  · have hat := hnone _ _ h
    rw [takeWhile_user huser] at hat
    exact absurd (List.mem_append_right _ List.mem_cons_self) hat
  · rw [h, Option.some.injEq, Prod.mk.injEq] at h'
    obtain ⟨rfl, heq⟩ := h'
    have htake := congrArg (List.takeWhile (· ≠ '/')) heq
    rw [takeWhile_user huser, takeWhile_user huser'] at htake
    obtain ⟨rfl, -⟩ := Delimited.append_sep_inj_right hrest hrest' htake
    rw [hres, List.tail_eq_of_cons_eq (List.append_cancel_left heq)]

theorem stripUserinfo_idem (head : List Char) :
    stripUserinfo (stripUserinfo head) = stripUserinfo head := by
  rcases stripUserinfo_cases head with ⟨hsame, -⟩ | ⟨scheme, user, rest, h, huser, hrest, hres⟩
  · rw [hsame, hsame]
  · rw [hres]
    have hsplit := splitScheme_replace h rest
    rcases stripUserinfo_cases (scheme ++ ([':', '/', '/'] ++ rest)) with
      ⟨hsame, -⟩ | ⟨scheme', user', rest', h', huser', -, -⟩
    · exact hsame
    · rw [hsplit, Option.some.injEq, Prod.mk.injEq] at h'
      rw [h'.2, takeWhile_user huser'] at hrest
      exact absurd (List.mem_append_right _ List.mem_cons_self) hrest

/-! ## The two heads -/

theorem mem_of_shift {u m : List Char} (h : u ++ m = m ++ v) (hu : u ≠ []) : ∀ c ∈ m, c ∈ u := by
  rcases List.append_eq_append_iff.mp h with ⟨a, hm, ha⟩ | ⟨a, rfl, -⟩
  · have hshorter : a.length < m.length := by
      have hpos := List.length_pos_iff.mpr hu
      rw [hm, List.length_append]
      omega
    intro c hc
    rw [hm] at hc
    rcases List.mem_append.mp hc with hc | hc
    · exact hc
    · exact mem_of_shift (hm.symm.trans ha) hu c hc
  · intro c hc
    exact List.mem_append_left _ hc
termination_by m.length

theorem removed_cases {x y r t : List Char} (hwhole : a ++ (x ++ r) = b ++ (y ++ t))
    (hleft : a ++ r = b ++ t) :
    (∃ m, b = a ++ m ∧ r = m ++ t ∧ x ++ m = m ++ y) ∨
      ∃ m, a = b ++ m ∧ t = m ++ r ∧ y ++ m = m ++ x := by
  rcases List.append_eq_append_iff.mp hleft with ⟨m, rfl, rfl⟩ | ⟨m, rfl, rfl⟩
  · refine .inl ⟨m, rfl, rfl, ?_⟩
    rw [List.append_assoc] at hwhole
    have hcut : x ++ m ++ t = m ++ y ++ t := by
      simpa only [List.append_assoc] using List.append_cancel_left hwhole
    exact List.append_cancel_right hcut
  · refine .inr ⟨m, rfl, rfl, ?_⟩
    rw [List.append_assoc] at hwhole
    have hcut : y ++ m ++ r = m ++ x ++ r := by
      simpa only [List.append_assoc] using (List.append_cancel_left hwhole).symm
    exact List.append_cancel_right hcut

theorem same_credentials {user' rest' : List Char}
    (hwhole : scheme ++ [':', '/', '/'] ++ (user ++ ['@'] ++ rest) =
      before ++ (user' ++ ['@'] ++ rest'))
    (hleft : scheme ++ [':', '/', '/'] ++ rest = before ++ rest') (huser : '/' ∉ user ++ ['@'])
    (huser' : '/' ∉ user' ++ ['@']) (hrest : '@' ∉ rest.takeWhile (· ≠ '/')) :
    before = scheme ++ [':', '/', '/'] ∧ user = user' ∧ rest = rest' := by
  rcases removed_cases hwhole hleft with ⟨m, hb, hr, hm⟩ | ⟨m, ha, ht, hm⟩
  · have hfree := mem_of_shift hm (by simp)
    -- a text between that is not empty ends with an `@` and has no slash
    have hnil : m = [] := by
      rcases List.eq_nil_or_concat' m with hnil | ⟨m', c, rfl⟩
      · exact hnil
      · exfalso
        have hms : '/' ∉ m' ++ [c] := fun hmem => huser (hfree _ hmem)
        have hend : (user ++ ['@'] ++ m') ++ [c] = (m' ++ [c] ++ user') ++ ['@'] := by
          simpa only [List.append_assoc] using hm
        obtain ⟨-, hc⟩ := List.append_inj' hend rfl
        rw [hr, takeWhile_slash hms, hc] at hrest
        exact hrest (by simp)
    rw [hnil] at hb hr hm
    exact ⟨by simpa using hb, by simpa using hm, by simpa using hr⟩
  · have hfree := mem_of_shift hm (by simp)
    -- a text between that is not empty ends with a slash
    have hnil : m = [] := by
      rcases List.eq_nil_or_concat' m with hnil | ⟨m', c, rfl⟩
      · exact hnil
      · exfalso
        have hend : (scheme ++ [':', '/']) ++ ['/'] = (before ++ m') ++ [c] := by
          simpa only [List.append_assoc, List.cons_append, List.nil_append] using ha
        obtain ⟨-, hc⟩ := List.append_inj' hend rfl
        apply huser'
        apply hfree
        rw [← hc]
        simp
    rw [hnil] at ha ht hm
    exact ⟨by simpa using ha.symm, by simpa using hm.symm, by simpa using ht.symm⟩

theorem heads_eq_iff : stripUserinfo head = stripCredentials head ↔ HeadPlain head := by
  rcases stripCredentials_cases head with ⟨hkeep, hno⟩ |
    ⟨before, user, host, after, hauth, hat, hclean⟩
  · rw [hkeep]
    constructor
    · intro h
      rcases stripUserinfo_cases head with ⟨-, hnone⟩ | ⟨scheme, user, rest, hsplit, -, -, hres⟩
      · exact .inr ⟨hno, hnone⟩
      · exfalso
        have hlen := congrArg List.length (hres.symm.trans (h.trans (eq_of_splitScheme hsplit)))
        simp only [List.length_append, List.length_cons] at hlen
        omega
    · rintro (⟨scheme, authority, after, hauth, hat, -⟩ | ⟨-, hplain⟩)
      · exact absurd ⟨_, _, _, hauth, hat⟩ hno
      · rcases stripUserinfo_cases head with ⟨hsame, -⟩ | ⟨scheme, user, rest, hsplit, huser, -, -⟩
        · exact hsame
        · have hat := hplain _ _ hsplit
          rw [takeWhile_user huser] at hat
          exact absurd (List.mem_append_right _ List.mem_cons_self) hat
  · obtain ⟨hhead, hslash, written, slashes, hbefore, hwritten, hslashes⟩ := authority_spec hauth
    obtain ⟨huser, hslash⟩ := not_or.mp (mt List.mem_append.mpr hslash)
    have hhost : '/' ∉ host := fun hmem => hslash (List.mem_cons_of_mem _ hmem)
    rw [hclean]
    constructor
    · intro h
      rcases stripUserinfo_cases head with ⟨hsame, -⟩ |
        ⟨scheme, user', rest, hsplit, huser', hrest, hres⟩
      · exfalso
        have hlen := congrArg List.length (hhead.symm.trans (hsame.symm.trans h))
        simp only [List.length_append, List.length_cons] at hlen
        omega
      · have hwhole : scheme ++ [':', '/', '/'] ++ (user' ++ ['@'] ++ rest) =
            before ++ (user ++ ['@'] ++ (host ++ after)) := by
          simpa using (eq_of_splitScheme hsplit).symm.trans hhead
        have hleft : scheme ++ [':', '/', '/'] ++ rest = before ++ (host ++ after) := by
          simpa using hres.symm.trans h
        obtain ⟨hb, -, hr⟩ := same_credentials hwhole hleft (by simpa using huser')
          (by simpa using huser) hrest
        rw [hr, takeWhile_slash hhost] at hrest
        exact .inl ⟨scheme, user ++ '@' :: host, after, by rw [hauth, hb], by simp,
          fun hmem => hrest (List.mem_append_right _ hmem)⟩
    · rintro (⟨scheme, authority, after', hauth', -, hafter⟩ | ⟨hno, -⟩)
      · rw [hauth, Option.some.injEq, Prod.mk.injEq, Prod.mk.injEq] at hauth'
        obtain ⟨hb, -, rfl⟩ := hauth'
        have hcolon : ':' ∉ scheme := by
          have hopen : written ++ ':' :: slashes = scheme ++ ':' :: ['/', '/'] :=
            hbefore.symm.trans hb
          obtain ⟨rfl, -⟩ := Delimited.append_sep_inj_right hslashes (by decide) hopen
          exact hwritten
        have hsplit : splitScheme head = some (scheme, user ++ '@' :: (host ++ after)) := by
          rw [hhead, hb, ← splitScheme_of_not_mem hcolon]
          simp only [List.append_assoc, List.cons_append]
        rw [stripUserinfo_of_split hsplit huser, hb, List.append_assoc]
        rw [takeWhile_slash hhost]
        intro hmem
        rcases List.mem_append.mp hmem with hmem | hmem
        · exact hat hmem
        · exact hafter hmem
      · exact absurd ⟨_, _, _, hauth, by simp⟩ hno

/-! ## The whole URL -/

/-- What stands before the first separator, and what after it where there is one. -/
def cut (sep : Char) (s : List Char) : List Char × Option (List Char) :=
  match Delimited.splitOnce sep s with
  | some (b, f) => (b, some f)
  | none => (s, none)

theorem cut_iff {sep : Char} {after : Option (List Char)} :
    cut sep raw = (before, after) ↔
      raw = before ++ after.elim [] (fun f => sep :: f) ∧ sep ∉ before := by
  unfold cut
  cases hsplit : Delimited.splitOnce sep raw with
  | none =>
    rw [Delimited.splitOnce_eq_none_iff] at hsplit
    constructor
    · rintro ⟨⟩
      exact ⟨(List.append_nil _).symm, hsplit⟩
    · rintro ⟨heq, -⟩
      cases after with
      | none => rw [heq, Option.elim_none, List.append_nil]
      | some f =>
        rw [heq] at hsplit
        exact absurd (List.mem_append_right _ List.mem_cons_self) hsplit
  | some parts =>
    obtain ⟨b, f⟩ := parts
    obtain ⟨heq, hb⟩ := Delimited.splitOnce_eq_some_iff.1 hsplit
    constructor
    · rintro ⟨⟩
      exact ⟨heq, hb⟩
    · rintro ⟨heq', hbefore⟩
      cases after with
      | none =>
        rw [Option.elim_none, List.append_nil] at heq'
        rw [← heq', heq] at hbefore
        exact absurd (List.mem_append_right _ List.mem_cons_self) hbefore
      | some f' =>
        obtain ⟨rfl, rfl⟩ := Delimited.append_sep_inj hb hbefore (heq.symm.trans heq')
        rfl

theorem urlParts_eq_iff {query fragment : Option (List Char)} :
    urlParts raw = (head, query, fragment) ↔
      ∃ before, cut '#' raw = (before, fragment) ∧ cut '?' before = (head, query) := by
  have hparts : urlParts raw = ((cut '?' (cut '#' raw).1).1, (cut '?' (cut '#' raw).1).2,
      (cut '#' raw).2) := rfl
  rw [hparts]
  constructor
  · rintro ⟨⟩
    exact ⟨_, rfl, rfl⟩
  · rintro ⟨before, hbefore, hhead⟩
    rw [hbefore, hhead]

theorem urlParts_iff {query fragment : Option (List Char)} :
    urlParts raw = (head, query, fragment) ↔
      raw = assemble head query fragment ∧ '?' ∉ head ∧ '#' ∉ head ∧ ∀ q ∈ query, '#' ∉ q := by
  rw [urlParts_eq_iff]
  constructor
  · rintro ⟨before, hbefore, hhead⟩
    obtain ⟨rfl, hquestion⟩ := cut_iff.1 hhead
    obtain ⟨hraw, hhash⟩ := cut_iff.1 hbefore
    obtain ⟨hhash, hhash'⟩ := not_or.mp (mt List.mem_append.mpr hhash)
    refine ⟨hraw, hquestion, hhash, ?_⟩
    rintro q rfl hmem
    exact hhash' (List.mem_cons_of_mem _ hmem)
  · rintro ⟨hraw, hquestion, hhash, hquery⟩
    refine ⟨head ++ query.elim [] (fun q => '?' :: q), cut_iff.2 ⟨hraw, ?_⟩,
      cut_iff.2 ⟨rfl, hquestion⟩⟩
    intro hmem
    rcases List.mem_append.mp hmem with hmem | hmem
    · exact hhash hmem
    · cases query with
      | none => cases hmem
      | some q =>
        rcases List.mem_cons.mp hmem with heq | hmem
        · exact absurd heq (by decide)
        · exact hquery q rfl hmem

theorem stripUserinfo_subset (head : List Char) : stripUserinfo head ⊆ head := by
  intro c hc
  rcases stripUserinfo_cases head with ⟨hsame, -⟩ | ⟨scheme, user, rest, hsplit, -, -, hres⟩
  · rwa [hsame] at hc
  · rw [hres] at hc
    rw [eq_of_splitScheme hsplit]
    rcases List.mem_append.mp hc with hc | hc
    · exact List.mem_append_left _ hc
    · rcases List.mem_append.mp hc with hc | hc
      · exact List.mem_append_right _ (List.mem_append_left _ hc)
      · exact List.mem_append_right _ (List.mem_append_right _
          (List.mem_append_right _ (List.mem_cons_of_mem _ hc)))

theorem hash_not_mem_scrubPairs {q : List Char} (h : '#' ∉ q) : '#' ∉ scrubPairs q := by
  intro hmem
  rcases mem_scrubPairs hmem with hmem | heq | heq
  · exact h hmem
  · exact absurd heq (by decide)
  · exact absurd heq (by decide)

variable {query fragment : Option (List Char)}

theorem scrubUrl_eq (h : urlParts raw = (head, query, fragment)) (hparses : parses raw = true) :
    scrubUrl parses raw =
      assemble (stripUserinfo head) (query.map scrubPairs) (fragment.map scrubFragment) := by
  unfold scrubUrl assemble
  rw [h]
  dsimp only
  rw [if_pos hparses]
  cases query <;> cases fragment <;> rfl

theorem urlParts_scrubbed {head' : List Char} (h : urlParts raw = (head, query, fragment))
    (hsub : head' ⊆ head) (fragment' : Option (List Char)) :
    urlParts (assemble head' (query.map scrubPairs) fragment') =
      (head', query.map scrubPairs, fragment') := by
  obtain ⟨-, hquestion, hhash, hquery⟩ := urlParts_iff.1 h
  refine urlParts_iff.2 ⟨rfl, fun hmem => hquestion (hsub hmem), fun hmem => hhash (hsub hmem), ?_⟩
  intro q hq
  obtain ⟨q', hq', rfl⟩ := Option.map_eq_some_iff.mp hq
  exact hash_not_mem_scrubPairs (hquery q' hq')

theorem scrubUrl_eq_clean_iff (h : urlParts raw = (head, query, fragment))
    (hparses : parses raw = true) :
    scrubUrl parses raw = clean raw ↔ HeadPlain head ∧ ∀ f ∈ fragment, FragmentPlain f := by
  have hclean : clean raw =
      assemble (stripCredentials head) (query.map scrubPairs) (fragment.map cleanFragment) := by
    unfold clean
    rw [h]
  have hfragment : fragment.map scrubFragment = fragment.map cleanFragment ↔
      ∀ f ∈ fragment, FragmentPlain f := by
    cases fragment with
    | none => simp
    | some f => simpa using scrubFragment_eq_iff
  rw [scrubUrl_eq h hparses, hclean, ← heads_eq_iff, ← hfragment]
  constructor
  · intro heq
    have hparts := urlParts_scrubbed h (stripUserinfo_subset head) (fragment.map scrubFragment)
    rw [heq, urlParts_scrubbed h (stripCredentials_subset head)] at hparts
    rw [Prod.mk.injEq, Prod.mk.injEq] at hparts
    exact ⟨hparts.1.symm, hparts.2.2.symm⟩
  · rintro ⟨hhead, hfrag⟩
    rw [hhead, hfrag]

theorem scrubUrl_idem_of_clean (haccepts : Accepts parses) (hparses : parses raw = true)
    (hexact : scrubUrl parses raw = clean raw) :
    scrubUrl parses (scrubUrl parses raw) = scrubUrl parses raw := by
  obtain ⟨head, query, fragment, h⟩ : ∃ head query fragment,
      urlParts raw = (head, query, fragment) := ⟨_, _, _, rfl⟩
  obtain ⟨hraw, hquestion, hhash, hquery⟩ := urlParts_iff.1 h
  have hsame := heads_eq_iff.2 ((scrubUrl_eq_clean_iff h hparses).mp hexact).1
  have hquestion' : '?' ∉ stripUserinfo head := fun hmem => hquestion (stripUserinfo_subset head hmem)
  have hhash' : '#' ∉ stripUserinfo head := fun hmem => hhash (stripUserinfo_subset head hmem)
  have haccepted : parses (assemble (stripUserinfo head) (query.map scrubPairs)
      (fragment.map scrubFragment)) = true := by
    apply haccepts.tail _ _ _ _ _ hquestion' hhash'
    · intro q hq
      exact ⟨hquery q hq, hash_not_mem_scrubPairs (hquery q hq)⟩
    · rw [hsame]
      apply haccepts.credentials _ _ _ hquestion hhash
      rwa [← hraw]
  have hparts := urlParts_scrubbed h (stripUserinfo_subset head) (fragment.map scrubFragment)
  rw [scrubUrl_eq h hparses, scrubUrl_eq hparts haccepted, stripUserinfo_idem, Option.map_map,
    Option.map_map]
  congr 2
  · exact funext scrubPairs_idem
  · exact funext scrubFragment_idem

end

/-- A URL is scrubbed clean exactly when its head and its fragment are plain. -/
theorem scrubUrl_clean_iff (parses : List Char → Bool) (haccepts : Accepts parses)
    (raw : List Char) (hparses : parses raw = true) :
    ScrubbedClean parses raw ↔
      HeadPlain (urlParts raw).1 ∧ ∀ f ∈ (urlParts raw).2.2, FragmentPlain f := by
  obtain ⟨head, query, fragment, hparts⟩ : ∃ head query fragment,
      urlParts raw = (head, query, fragment) := ⟨_, _, _, rfl⟩
  rw [hparts, ← scrubUrl_eq_clean_iff hparts hparses]
  constructor
  · intro h
    exact h.exact
  · intro h
    exact ⟨h, scrubUrl_idem_of_clean haccepts hparses h⟩

namespace One

/-- A parser that refuses nothing. -/
def parses (_ : List Char) : Bool := true

theorem accepts : Accepts parses := ⟨fun _ _ _ _ _ _ _ _ _ => rfl, fun _ _ _ _ _ _ => rfl⟩

/-- `https://u:p@h/x?a=1` -/
def login : List Char :=
  ['h', 't', 't', 'p', 's', ':', '/', '/', 'u', ':', 'p', '@', 'h', '/', 'x', '?', 'a', '=', '1']

/-- `https://h/#code=1?a` -/
def callback : List Char :=
  ['h', 't', 't', 'p', 's', ':', '/', '/', 'h', '/', '#', 'c', 'o', 'd', 'e', '=', '1', '?', 'a']

/-- `https:u:p@h/` -/
def noSlashes : List Char := ['h', 't', 't', 'p', 's', ':', 'u', ':', 'p', '@', 'h', '/']

end One

theorem scrubUrl_clean_iff_login : ScrubbedClean One.parses One.login := by
  refine (scrubUrl_clean_iff One.parses One.accepts One.login rfl).mpr ⟨.inl ?_, ?_⟩
  · exact ⟨['h', 't', 't', 'p', 's'], ['u', ':', 'p', '@', 'h'], ['/', 'x'], by decide, by decide,
      by decide⟩
  · rintro f ⟨⟩

/-- A credential before the `?` of a fragment stays, and so do credentials that no `://` stands
before. -/
theorem fragment_credential_stays :
    Accepts One.parses ∧ ¬ ScrubbedClean One.parses One.callback ∧
      ¬ ScrubbedClean One.parses One.noSlashes := by
  refine ⟨One.accepts, fun h => ?_, fun h => ?_⟩
  · have hexact := h.exact
    revert hexact
    decide
  · have hexact := h.exact
    revert hexact
    decide

end Uptimepage.Redaction
