import Mathlib.Data.List.TakeDrop
import Uptimepage.Web.UrlStandard

/-!
# Where a URL keeps its host

The scheme of a text with no white space, and the text of its host and port, as the URL
Standard's parser finds them with no base URL; what follows the authority, the query and the
fragment do not matter to it, and of the credentials only that there are some
(`origin_of_authority`).
-/

namespace UrlStandard

/-- What stands before the query and the fragment. -/
def headOf (s : List Char) : List Char := s.takeWhile fun c => !(c == '?' || c == '#')

/-- The host of a `file` URL follows two slashes, either way up. -/
def fileHost : List Char → Option (List Char)
  | c :: d :: rest =>
    if isSlash c && isSlash d then some (rest.takeWhile fun c => !isSlash c) else none
  | _ => none

/-- The host and its port, in what follows the colon of the scheme. -/
def hostText (name rest : List Char) : Option (List Char) :=
  if name = fileScheme then fileHost rest
  else
    let special := specialSchemes.contains name
    (opening special rest).map fun slashes =>
      let authority :=
        (rest.drop slashes.length).takeWhile fun c => !(c == '/' || special && c == '\\')
      (Delimited.afterLast '@' authority).getD authority

/-- The name of the scheme, and the host with its port.  Controls and spaces at the end are passed
over. -/
def origin? (s : List Char) : Option (List Char × List Char) :=
  match scheme? (headOf (s.rdropWhile isC0OrSpace)) with
  | none => none
  | some (_, name, rest) => (hostText name rest).map fun host => (name, host)

/-- Text that can stand in an authority. -/
def isAuthorityChar (c : Char) : Bool :=
  !(isSlash c || c == '?' || c == '#' || isTabOrNewline c)

/-- No credentials, or some and the `@` that ends them. -/
def IsUserinfo (user : List Char) : Prop := user = [] ∨ ∃ text, user = text ++ ['@']

section

variable {name rest user host after before : List Char}

theorem opening_special (h : ∀ c ∈ rest, isTabOrNewline c = false) :
    opening true rest = some (rest.takeWhile isSlash) := by
  have hslash : (rest.takeWhile fun c => isSlash c || isTabOrNewline c) =
      rest.takeWhile isSlash := by
    induction rest with
    | nil => rfl
    | cons c rest ih =>
      obtain ⟨hc, hrest⟩ := List.forall_mem_cons.mp h
      rw [List.takeWhile_cons, List.takeWhile_cons, hc, Bool.or_false, ih hrest]
  have hkeep : (rest.takeWhile isSlash).rdropWhile isTabOrNewline = rest.takeWhile isSlash := by
    refine List.rdropWhile_eq_self_iff.mpr fun hne => ?_
    rw [h _ ((List.takeWhile_prefix _).subset (List.getLast_mem hne))]
    decide
  unfold opening
  rw [if_pos rfl, hslash, hkeep]

theorem opening_plain (h : ∀ c ∈ rest, isTabOrNewline c = false) :
    opening false rest = if ['/', '/'] <+: rest then some ['/', '/'] else none := by
  unfold opening
  rw [if_neg (by decide)]
  rcases rest with - | ⟨c, - | ⟨d, rest⟩⟩
  · rfl
  · obtain ⟨hc, -⟩ := List.forall_mem_cons.mp h
    rw [List.dropWhile_cons_of_neg (by rw [hc]; decide), if_neg fun hpre => ?_]
    · split
      · next heq => cases heq; rfl
      · rfl
    · have hlen := hpre.length_le
      simp at hlen
  · obtain ⟨hc, hd, -⟩ := List.forall_mem_cons.mp h |>.imp_right List.forall_mem_cons.mp
    rw [List.dropWhile_cons_of_neg (by rw [hc]; decide)]
    by_cases hcs : c = '/'
    · subst hcs
      split
      · next heq =>
        obtain rfl := List.tail_eq_of_cons_eq heq
        rw [List.dropWhile_cons_of_neg (by rw [hd]; decide)]
        by_cases hds : d = '/'
        · subst hds
          rw [if_pos ⟨rest, rfl⟩, List.takeWhile_cons_of_neg (by decide),
            List.takeWhile_cons_of_neg (by decide)]
          rfl
        · rw [if_neg fun hpre => hds ?_]
          · split
            · next heq => exact absurd (List.head_eq_of_cons_eq heq) hds
            · rfl
          · obtain ⟨t, ht⟩ := hpre
            exact (List.head_eq_of_cons_eq (List.tail_eq_of_cons_eq ht)).symm
      · next hno => exact absurd rfl (hno _)
    · rw [if_neg fun hpre => hcs ?_]
      · split
        · next heq => exact absurd (List.head_eq_of_cons_eq heq) hcs
        · rfl
      · obtain ⟨t, ht⟩ := hpre
        exact (List.head_eq_of_cons_eq ht).symm

variable {p : Char → Bool} {a b auth tail : List Char}

theorem takeWhile_stop {c : Char} (hc : p c = false) (l b : List Char) :
    (l ++ c :: b).takeWhile p = l.takeWhile p := by
  induction l with
  | nil => rw [List.nil_append, List.takeWhile_cons_of_neg (by rw [hc]; decide)]; rfl
  | cons d l ih => rw [List.cons_append, List.takeWhile_cons, List.takeWhile_cons, ih]

theorem takeWhile_within (h : ∃ c ∈ a, p c = false) (b : List Char) :
    (a ++ b).takeWhile p = a.takeWhile p := by
  obtain ⟨c, hc, hp⟩ := h
  obtain ⟨s, t, rfl⟩ := List.append_of_mem hc
  rw [List.append_assoc, List.cons_append, takeWhile_stop hp, takeWhile_stop hp]

theorem hostText_closed {b' : List Char} (hopen : ∃ c ∈ a, isSlash c = false)
    (hb : ∀ c ∈ a ++ '/' :: b, isTabOrNewline c = false)
    (hb' : ∀ c ∈ a ++ '/' :: b', isTabOrNewline c = false) :
    hostText name (a ++ '/' :: b) = hostText name (a ++ '/' :: b') := by
  obtain ⟨letter, hletter, hns⟩ := hopen
  unfold hostText
  split
  · match a, hletter with
    | [c], hletter =>
      rw [List.mem_singleton.mp hletter] at hns
      simp [fileHost, hns]
    | c :: d :: a, _ =>
      simp only [List.cons_append, fileHost]
      rw [takeWhile_stop (by decide), takeWhile_stop (by decide)]
  · dsimp only
    have hinside (special : Bool) (k : Nat) (hk : k ≤ a.length) (b : List Char) :
        (((a ++ '/' :: b).drop k).takeWhile fun c => !(c == '/' || special && c == '\\')) =
          (a.drop k).takeWhile fun c => !(c == '/' || special && c == '\\') := by
      rw [List.drop_append_of_le_length hk, takeWhile_stop (by simp)]
    cases specialSchemes.contains name with
    | true =>
      have hlen : (a.takeWhile isSlash).length ≤ a.length := (List.takeWhile_prefix _).length_le
      rw [opening_special hb, opening_special hb', takeWhile_within ⟨letter, hletter, hns⟩,
        takeWhile_within ⟨letter, hletter, hns⟩, Option.map_some, Option.map_some,
        hinside true _ hlen, hinside true _ hlen]
    | false =>
      rw [opening_plain hb, opening_plain hb']
      match a, hletter with
      | [c], hletter =>
        rw [List.mem_singleton.mp hletter] at hns
        have hne : c ≠ '/' := by
          rintro rfl
          exact absurd hns (by decide)
        have hnot (b : List Char) : ¬ ['/', '/'] <+: [c] ++ '/' :: b := by
          rintro ⟨t, ht⟩
          exact hne (List.head_eq_of_cons_eq ht).symm
        rw [if_neg (hnot b), if_neg (hnot b')]
        rfl
      | c :: d :: a, _ =>
        have hpre (b : List Char) : ['/', '/'] <+: c :: d :: a ++ '/' :: b ↔ c = '/' ∧ d = '/' := by
          simp [List.cons_prefix_cons, eq_comm]
        simp only [hpre]
        have htwo : (['/', '/'] : List Char).length = 2 := rfl
        split
        · rw [Option.map_some, Option.map_some, htwo, hinside false 2 (by simp),
            hinside false 2 (by simp)]
        · rfl

theorem afterLast_userinfo (huser : IsUserinfo user) (hat : '@' ∉ host) :
    (Delimited.afterLast '@' (user ++ host)).getD (user ++ host) = host := by
  rcases huser with rfl | ⟨text, rfl⟩
  · rw [List.nil_append, Delimited.afterLast_eq_none_iff.2 hat]
    rfl
  · have hlast : Delimited.afterLast '@' (text ++ ['@'] ++ host) = some host :=
      Delimited.afterLast_eq_some_iff.2 ⟨text, by simp, hat⟩
    rw [hlast]
    rfl

theorem takeWhile_authority (h : ∀ c ∈ auth, p c = true) (hp : p '/' = false)
    (hafter : after = [] ∨ ∃ path, after = '/' :: path) : (auth ++ after).takeWhile p = auth := by
  have hall : auth.takeWhile p = auth := List.takeWhile_eq_self_iff.mpr h
  rcases hafter with rfl | ⟨path, rfl⟩
  · rw [List.append_nil, hall]
  · rw [takeWhile_stop hp, hall]

theorem tab_free (hbefore : ∀ c ∈ before, isTabOrNewline c = false)
    (hchars : ∀ c ∈ auth, isAuthorityChar c = true)
    (hafter : ∀ c ∈ after, isTabOrNewline c = false) :
    ∀ c ∈ before ++ '/' :: '/' :: (auth ++ after), isTabOrNewline c = false := by
  simp only [List.forall_mem_append, List.forall_mem_cons]
  refine ⟨hbefore, by decide, by decide, fun c hc => ?_, hafter⟩
  have hchar := hchars c hc
  revert hchar
  unfold isAuthorityChar
  cases isTabOrNewline c <;> simp

theorem hostText_authority (hchars : ∀ c ∈ user ++ host, isAuthorityChar c = true)
    (hhost : host ≠ []) (huser : IsUserinfo user) (hat : '@' ∉ host)
    (hafter : after = [] ∨ ∃ path, after = '/' :: path)
    (htab : ∀ c ∈ after, isTabOrNewline c = false) :
    hostText name ('/' :: '/' :: (user ++ host ++ after)) =
      some (if name = fileScheme then user ++ host else host) := by
  have hslash : ∀ c ∈ user ++ host, isSlash c = false := by
    intro c hc
    have hchar := hchars c hc
    revert hchar
    unfold isAuthorityChar
    cases isSlash c <;> simp
  have hfree : ∀ c ∈ '/' :: '/' :: (user ++ host ++ after), isTabOrNewline c = false :=
    by
    have hbefore : ∀ c ∈ ([] : List Char), isTabOrNewline c = false := nofun
    exact tab_free hbefore hchars htab
  have hopening (special : Bool) :
      opening special ('/' :: '/' :: (user ++ host ++ after)) = some ['/', '/'] := by
    cases special with
    | false =>
      rw [opening_plain hfree, if_pos ⟨_, rfl⟩]
    | true =>
      rw [opening_special hfree]
      obtain ⟨c, hc⟩ := List.exists_mem_of_ne_nil _ hhost
      have hnone : (user ++ host ++ after).takeWhile isSlash = [] := by
        have hmem : c ∈ user ++ host := List.mem_append_right _ hc
        rw [takeWhile_within ⟨c, hmem, hslash c hmem⟩, List.takeWhile_eq_nil_iff]
        intro hlen
        rw [hslash _ (List.get_mem _ _)]
        decide
      rw [List.takeWhile_cons_of_pos (by decide), List.takeWhile_cons_of_pos (by decide), hnone]
  unfold hostText
  split
  · show some _ = some _
    rw [takeWhile_authority (fun c hc => by rw [hslash c hc]; rfl) (by decide) hafter]
  · dsimp only
    rw [hopening, Option.map_some]
    show some ((Delimited.afterLast '@' ((user ++ host ++ after).takeWhile _)).getD
      ((user ++ host ++ after).takeWhile _)) = _
    rw [takeWhile_authority (fun c hc => ?_) (by simp) hafter, afterLast_userinfo huser hat]
    have hns := hslash c hc
    unfold isSlash at hns
    rw [Bool.or_eq_false_iff] at hns
    rw [hns.1, hns.2, Bool.and_false]
    rfl

/-- A path, a query or a fragment. -/
def IsTail (tail : List Char) : Prop :=
  ∃ c rest, tail = c :: rest ∧ (c = '/' ∨ c = '?' ∨ c = '#')

theorem rdropWhile_within (h : ∃ c ∈ b, p c = false) (a : List Char) :
    (a ++ b).rdropWhile p = a ++ b.rdropWhile p := by
  obtain ⟨c, hc, hp⟩ := h
  obtain ⟨s, t, rfl⟩ := List.append_of_mem hc
  have hdrop (x y : List Char) : (x ++ c :: y).dropWhile p = x.dropWhile p ++ c :: y := by
    induction x with
    | nil => rw [List.nil_append, List.dropWhile_cons_of_neg (by rw [hp]; decide)]; rfl
    | cons d x ih =>
      rw [List.cons_append, List.dropWhile_cons, List.dropWhile_cons]
      split
      · exact ih
      · rfl
  unfold List.rdropWhile
  simp [hdrop]

theorem IsTail.rdropWhile (h : IsTail tail) (hkept : ∃ c ∈ tail, p c = false) :
    IsTail (tail.rdropWhile p) := by
  obtain ⟨c, rest, rfl, hc⟩ := h
  obtain ⟨d, hd, hp⟩ := hkept
  have hne : (c :: rest).rdropWhile p ≠ [] := by
    intro hnil
    have hall := List.rdropWhile_eq_nil_iff.mp hnil d hd
    rw [hp] at hall
    cases hall
  obtain ⟨c', rest', hsome⟩ := List.exists_cons_of_ne_nil hne
  obtain ⟨t, ht⟩ := List.rdropWhile_prefix p (c :: rest)
  rw [hsome] at ht
  obtain rfl : c' = c := List.head_eq_of_cons_eq ht
  exact ⟨c', rest', hsome, hc⟩

theorem IsTail.kept (h : IsTail tail) : ∃ c ∈ tail, isC0OrSpace c = false := by
  obtain ⟨c, rest, rfl, rfl | rfl | rfl⟩ := h
  all_goals exact ⟨_, List.mem_cons_self, by decide⟩

theorem headOf_tail (h : IsTail tail) : headOf tail = [] ∨ ∃ path, headOf tail = '/' :: path := by
  obtain ⟨c, rest, rfl, rfl | rfl | rfl⟩ := h
  · exact .inr ⟨headOf rest, List.takeWhile_cons_of_pos (by decide)⟩
  · exact .inl (List.takeWhile_cons_of_neg (by decide))
  · exact .inl (List.takeWhile_cons_of_neg (by decide))

/-- The same host, or none that is one: no host has an `@`. -/
def SameOrigin (o o' : Option (List Char × List Char)) : Prop :=
  o = o' ∨ (∃ x ∈ o, '@' ∈ x.2) ∧ ∃ x ∈ o', '@' ∈ x.2

theorem headOf_authority (hq : ∀ c ∈ before, c ≠ '?' ∧ c ≠ '#')
    (hchars : ∀ c ∈ user ++ host, isAuthorityChar c = true) :
    headOf (before ++ ':' :: '/' :: '/' :: (user ++ host ++ tail)) =
      before ++ ':' :: '/' :: '/' :: (user ++ host ++ headOf tail) := by
  have hall : ∀ c ∈ before ++ ':' :: '/' :: '/' :: (user ++ host),
      (!(c == '?' || c == '#')) = true := by
    simp only [List.forall_mem_append, List.forall_mem_cons]
    refine ⟨fun c hc => by simp [hq c hc], by decide, by decide, by decide, ?_⟩
    rw [← List.forall_mem_append]
    intro c hc
    have hchar := hchars c hc
    revert hchar
    unfold isAuthorityChar
    cases c == '?' <;> cases c == '#' <;> simp
  have hsplit (x : List Char) : before ++ ':' :: '/' :: '/' :: (user ++ host ++ x) =
      before ++ ':' :: '/' :: '/' :: (user ++ host) ++ x := by simp
  rw [hsplit, hsplit]
  exact List.takeWhile_append_of_pos hall

theorem scheme?_split {written : List Char} (hcolon : ':' ∉ written) (rest : List Char) :
    scheme? (written ++ ':' :: rest) =
      (scheme? (written ++ [':'])).map fun x => (x.1, x.2.1, rest) := by
  unfold scheme?
  rw [Delimited.splitOnce_eq_some_iff.2 ⟨rfl, hcolon⟩, Delimited.splitOnce_eq_some_iff.2
    ⟨rfl, hcolon⟩]
  dsimp only
  split <;> rfl

theorem origin_of_authority {user' tail' : List Char}
    (hchars : ∀ c ∈ user ++ host, isAuthorityChar c = true)
    (hchars' : ∀ c ∈ user' ++ host, isAuthorityChar c = true) (hhost : host ≠ [])
    (hat : '@' ∉ host) (huser : IsUserinfo user) (huser' : IsUserinfo user')
    (hnone : user = [] ↔ user' = []) (htail : IsTail tail) (htail' : IsTail tail')
    (htabs : ∀ c ∈ before ++ tail ++ tail', isTabOrNewline c = false) :
    SameOrigin (origin? (before ++ ':' :: '/' :: '/' :: (user ++ host ++ tail)))
      (origin? (before ++ ':' :: '/' :: '/' :: (user' ++ host ++ tail'))) := by
  simp only [List.forall_mem_append] at htabs
  obtain ⟨⟨hbefore, htab⟩, htab'⟩ := htabs
  unfold origin?
  have hstripped (u t : List Char) (ht : IsTail t) :
      (before ++ ':' :: '/' :: '/' :: (u ++ host ++ t)).rdropWhile isC0OrSpace =
        before ++ ':' :: '/' :: '/' :: (u ++ host ++ t.rdropWhile isC0OrSpace) := by
    have hassoc (x : List Char) : before ++ ':' :: '/' :: '/' :: (u ++ host ++ x) =
        before ++ ':' :: '/' :: '/' :: (u ++ host) ++ x := by simp
    rw [hassoc, rdropWhile_within ht.kept, ← hassoc]
  have hsub {t : List Char} (h : ∀ c ∈ t, isTabOrNewline c = false) :
      ∀ c ∈ t.rdropWhile isC0OrSpace, isTabOrNewline c = false :=
    fun c hc => h c ((List.rdropWhile_prefix _ _).subset hc)
  rw [hstripped user tail htail, hstripped user' tail' htail']
  replace htab := hsub htab
  replace htab' := hsub htab'
  replace htail := htail.rdropWhile htail.kept
  replace htail' := htail'.rdropWhile htail'.kept
  generalize tail.rdropWhile isC0OrSpace = tail at *
  generalize tail'.rdropWhile isC0OrSpace = tail' at *
  by_cases hq : ∀ c ∈ before, c ≠ '?' ∧ c ≠ '#'
  · rw [headOf_authority hq hchars, headOf_authority hq hchars']
    have hfree : ∀ {t : List Char}, (∀ c ∈ t, isTabOrNewline c = false) →
        ∀ c ∈ headOf t, isTabOrNewline c = false :=
      fun h c hc => h c ((List.takeWhile_prefix _).subset hc)
    by_cases hcolon : ':' ∈ before
    · -- the scheme is before: its authority ends at the latest where this one begins
      obtain ⟨⟨written, rest⟩, hsplit⟩ := Option.ne_none_iff_exists'.mp
        fun hnone => Delimited.splitOnce_eq_none_iff.1 hnone hcolon
      obtain ⟨rfl, hfirst⟩ := Delimited.splitOnce_eq_some_iff.1 hsplit
      left
      have hrest : ∀ c ∈ rest ++ [':'], isTabOrNewline c = false := by
        simp only [List.forall_mem_append, List.forall_mem_cons] at hbefore ⊢
        exact ⟨hbefore.2.2, by decide, nofun⟩
      have hopen : ∃ c ∈ rest ++ [':'], isSlash c = false :=
        ⟨':', List.mem_append_right _ (List.mem_singleton_self _), by decide⟩
      have hsplit (x : List Char) : written ++ ':' :: rest ++ ':' :: '/' :: '/' :: x =
          written ++ ':' :: (rest ++ [':'] ++ '/' :: '/' :: x) := by simp
      rw [hsplit, hsplit, scheme?_split hfirst (_ ++ '/' :: '/' :: (user ++ host ++ headOf tail)),
        scheme?_split hfirst (_ ++ '/' :: '/' :: (user' ++ host ++ headOf tail'))]
      cases scheme? (written ++ [':']) with
      | none => rfl
      | some parts =>
        dsimp only [Option.map_some]
        rw [hostText_closed hopen (tab_free hrest hchars (hfree htab))
          (tab_free hrest hchars' (hfree htab'))]
    · rw [scheme?_split hcolon ('/' :: '/' :: (user ++ host ++ headOf tail)),
        scheme?_split hcolon ('/' :: '/' :: (user' ++ host ++ headOf tail'))]
      cases scheme? (before ++ [':']) with
      | none => exact .inl rfl
      | some parts =>
        dsimp only [Option.map_some]
        rw [hostText_authority hchars hhost huser hat (headOf_tail htail) (hfree htab),
          hostText_authority hchars' hhost huser' hat (headOf_tail htail') (hfree htab')]
        by_cases hfile : parts.2.1 = fileScheme
        · rw [if_pos hfile, if_pos hfile]
          rcases huser with rfl | ⟨text, rfl⟩
          · rw [hnone.mp rfl]
            exact .inl rfl
          · rcases huser' with rfl | ⟨text', rfl⟩
            · exact absurd (hnone.mpr rfl)
                (List.append_ne_nil_of_right_ne_nil text (List.cons_ne_nil _ _))
            · exact .inr ⟨⟨_, rfl, by simp⟩, ⟨_, rfl, by simp⟩⟩
        · rw [if_neg hfile, if_neg hfile]
          exact .inl rfl
  · -- what stands before has the query or the fragment
    left
    push Not at hq
    obtain ⟨c, hc, hend⟩ := hq
    have hstop : ∃ c ∈ before, (!(c == '?' || c == '#')) = false := by
      refine ⟨c, hc, ?_⟩
      by_cases hquery : c = '?'
      · simp [hquery]
      · simp [hend hquery]
    unfold headOf
    rw [takeWhile_within hstop, takeWhile_within hstop]

end

end UrlStandard
