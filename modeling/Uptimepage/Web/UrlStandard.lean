import Mathlib.Data.List.DropRight
import Uptimepage.Text.Delimited

/-!
# Where a URL keeps its credentials

The authority of a URL as the URL Standard's parser finds it in the text before the query and
the fragment, with no base URL.  Controls and spaces before the scheme are passed over, and
tabs and newlines anywhere.  The special schemes take any run of slashes, either way up, for
the two that open the authority; the others want exactly two, and `file` has no credentials.
-/

namespace UrlStandard

/-- Passed over wherever they stand. -/
def isTabOrNewline (c : Char) : Bool := c == '\t' || c == '\n' || c == '\r'

/-- Passed over before the scheme. -/
def isC0OrSpace (c : Char) : Bool := c.toNat ≤ 0x20

def isSlash (c : Char) : Bool := c == '/' || c == '\\'

def specialSchemes : List (List Char) :=
  [['h', 't', 't', 'p'], ['h', 't', 't', 'p', 's'], ['w', 's'], ['w', 's', 's'], ['f', 't', 'p']]

def fileScheme : List Char := ['f', 'i', 'l', 'e']

def isScheme : List Char → Bool
  | [] => false
  | c :: rest => c.isAlpha && rest.all fun d => d.isAlphanum || d == '+' || d == '-' || d == '.'

/-- The scheme as it is written, its name, and what follows its colon. -/
def scheme? (head : List Char) : Option (List Char × List Char × List Char) :=
  match Delimited.splitOnce ':' head with
  | none => none
  | some (written, rest) =>
    let name :=
      ((written.dropWhile isC0OrSpace).filter fun c => !isTabOrNewline c).map Char.toLower
    if isScheme name then some (written, name, rest) else none

def opening (special : Bool) (rest : List Char) : Option (List Char) :=
  if special then
    some ((rest.takeWhile fun c => isSlash c || isTabOrNewline c).rdropWhile isTabOrNewline)
  else
    match rest.dropWhile isTabOrNewline with
    | '/' :: rest' =>
      match rest'.dropWhile isTabOrNewline with
      | '/' :: _ =>
        some (rest.takeWhile isTabOrNewline ++ '/' :: rest'.takeWhile isTabOrNewline ++ ['/'])
      | _ => none
    | _ => none

/-- What stands before the authority, the authority, and what follows it. -/
def authority? (head : List Char) : Option (List Char × List Char × List Char) :=
  match scheme? head with
  | none => none
  | some (written, name, rest) =>
    if name = fileScheme then none
    else
      let special := specialSchemes.contains name
      match opening special rest with
      | none => none
      | some slashes =>
        let region := rest.drop slashes.length
        let inside := fun c => !(c == '/' || special && c == '\\')
        some (written ++ ':' :: slashes, region.takeWhile inside, region.dropWhile inside)

/-- The credentials end at the last `@` of the authority. -/
def stripCredentials (head : List Char) : List Char :=
  match authority? head with
  | none => head
  | some (before, authority, after) =>
    match Delimited.afterLast '@' authority with
    | none => head
    | some host => before ++ host ++ after

def HasCredentials (head : List Char) : Prop :=
  ∃ before authority after, authority? head = some (before, authority, after) ∧ '@' ∈ authority

/-! ## The parts -/

section

variable {head rest written name slashes before auth after : List Char} {special : Bool}

theorem scheme_spec (h : scheme? head = some (written, name, rest)) :
    head = written ++ ':' :: rest ∧ ':' ∉ written := by
  unfold scheme? at h
  split at h
  · cases h
  · next hsplit =>
    dsimp only at h
    split at h
    · cases h
      exact Delimited.splitOnce_eq_some_iff.1 hsplit
    · cases h

theorem takeWhile_tab_free {c : Char} (hc : isTabOrNewline c = false) (s : List Char) :
    c ∉ s.takeWhile isTabOrNewline := by
  intro hmem
  rw [List.mem_takeWhile_imp hmem] at hc
  cases hc

theorem opening_spec (h : opening special rest = some slashes) :
    slashes <+: rest ∧ ':' ∉ slashes := by
  unfold opening at h
  split at h
  · cases h
    have hpre := (List.rdropWhile_prefix isTabOrNewline
      (l := rest.takeWhile fun c => isSlash c || isTabOrNewline c))
    refine ⟨hpre.trans (List.takeWhile_prefix _), fun hmem => ?_⟩
    have := List.mem_takeWhile_imp (hpre.subset hmem)
    revert this
    decide
  · split at h
    · next rest' hrest' =>
      split at h
      · next rest'' hrest'' =>
        cases h
        constructor
        · refine ⟨rest'', ?_⟩
          conv_rhs => rw [← List.takeWhile_append_dropWhile (p := isTabOrNewline) (l := rest),
            hrest', ← List.takeWhile_append_dropWhile (p := isTabOrNewline) (l := rest'), hrest'']
          simp
        · simp only [List.mem_append, List.mem_cons, List.not_mem_nil, or_false, not_or]
          refine ⟨⟨takeWhile_tab_free (by decide) _, by decide, takeWhile_tab_free (by decide) _⟩,
            by decide⟩
      · cases h
    · cases h

theorem authority_spec (h : authority? head = some (before, auth, after)) :
    head = before ++ (auth ++ after) ∧ '/' ∉ auth ∧
      ∃ written slashes, before = written ++ ':' :: slashes ∧ ':' ∉ written ∧ ':' ∉ slashes := by
  unfold authority? at h
  split at h
  · cases h
  · next written name rest hscheme =>
    obtain ⟨hhead, hcolon⟩ := scheme_spec hscheme
    split at h
    · cases h
    · dsimp only at h
      split at h
      · cases h
      · next slashes hopening =>
        cases h
        obtain ⟨⟨region, hregion⟩, hslashes⟩ := opening_spec hopening
        refine ⟨?_, fun hmem => ?_, written, slashes, rfl, hcolon, hslashes⟩
        · rw [List.takeWhile_append_dropWhile, hhead, ← hregion, List.drop_left]
          simp
        · have := List.mem_takeWhile_imp hmem
          revert this
          simp

theorem stripCredentials_cases (head : List Char) :
    stripCredentials head = head ∧ ¬ HasCredentials head ∨
      ∃ before user host after, authority? head = some (before, user ++ '@' :: host, after) ∧
        '@' ∉ host ∧ stripCredentials head = before ++ (host ++ after) := by
  unfold stripCredentials HasCredentials
  cases hauth : authority? head with
  | none => exact .inl ⟨rfl, by rintro ⟨_, _, _, h, -⟩; cases h⟩
  | some parts =>
    obtain ⟨before, auth, after⟩ := parts
    dsimp only
    cases hlast : Delimited.afterLast '@' auth with
    | none =>
      refine .inl ⟨rfl, ?_⟩
      rintro ⟨_, _, _, h, hat⟩
      cases h
      exact Delimited.afterLast_eq_none_iff.1 hlast hat
    | some host =>
      obtain ⟨user, rfl, hhost⟩ := Delimited.afterLast_eq_some_iff.1 hlast
      exact .inr ⟨before, user, host, after, rfl, hhost, List.append_assoc _ _ _⟩

theorem stripCredentials_subset (head : List Char) : stripCredentials head ⊆ head := by
  intro c hc
  rcases stripCredentials_cases head with ⟨hsame, -⟩ | ⟨before, user, host, after, hauth, -, hres⟩
  · rwa [hsame] at hc
  · rw [hres, List.mem_append, List.mem_append] at hc
    rw [(authority_spec hauth).1, List.mem_append, List.mem_append, List.mem_append]
    rcases hc with hc | hc | hc
    · exact .inl hc
    · exact .inr (.inl (.inr (List.mem_cons_of_mem _ hc)))
    · exact .inr (.inr hc)

end

end UrlStandard
