import Uptimepage.Domain.Text
import Uptimepage.Text.Replace
import Uptimepage.Web.UrlOrigin

/-!
# Errors without secrets

`redact_secrets` and `log_error_snippet` of `escalation/engine/rules.rs`.  A delivery error is kept
word by word; a word with `://` in it is cut down to the origin of the URL it is, or dropped.
-/

namespace Uptimepage

open UrlStandard

/-- What is read of a `url::Url`. -/
structure ParsedUrl where
  scheme : List Char
  host : Option (List Char)
  port : Option Nat
deriving DecidableEq

def trimMatches (p : Char → Bool) (s : List Char) : List Char := (s.dropWhile p).rdropWhile p

section

variable (isAlphanumeric : Char → Bool) (parse : List Char → Option ParsedUrl)

/-- Taken off a word at both ends. -/
def isDelimiter (c : Char) : Bool := !isAlphanumeric c && c != ':' && c != '/'

def redactedUrl : List Char := "[redacted-url]".toList

def redactWord (tok : List Char) : List Char :=
  if Text.contains [':', '/', '/'] tok then
    match parse (trimMatches (isDelimiter isAlphanumeric) tok) with
    | some u =>
      match u.host with
      | some host =>
        let port := match u.port with
          | some p => ':' :: Nat.toDigits 10 p
          | none => []
        u.scheme ++ [':', '/', '/'] ++ host ++ port
      | none => redactedUrl
    | none => redactedUrl
  else tok

def redactSecrets (msg : String) : String :=
  " ".intercalate ((splitWhitespace msg).map fun tok =>
    String.ofList (redactWord isAlphanumeric parse tok.toList))

end

def maxLogChars : Nat := 256

/-- An address, which has something before its first `@` and a dot after it. -/
def maskAddress (tok : List Char) : List Char :=
  match Delimited.splitOnce '@' tok with
  | some (local_, domain) =>
    if local_ ≠ [] ∧ '.' ∈ domain then "[redacted-address]".toList else tok
  | none => tok

def maskAddresses (error : String) : String :=
  " ".intercalate ((splitWhitespace error).map fun tok => String.ofList (maskAddress tok.toList))

def logErrorSnippet (error : String) : String :=
  let masked := maskAddresses error
  if maxLogChars < masked.toList.length then
    String.ofList (masked.toList.take maxLogChars ++ ['…'])
  else masked

/-! ## What a URL keeps -/

/-- `Url::parse` of a text with no white space: a URL has a host where the URL Standard finds the
text of one, by the scheme and that text alone, in which no `@` may be. -/
def FollowsStandard (parse : List Char → Option ParsedUrl) : Prop :=
  ∃ hosted : List Char → List Char → Option ParsedUrl,
    (∀ scheme host, '@' ∈ host → hosted scheme host = none) ∧
    ∀ s, (∀ c ∈ s, isWhitespace c = false) →
      (parse s).filter (fun u => u.host.isSome) = (origin? s).bind fun o => hosted o.1 o.2

/-- Two words that are one but for a URL in them, which has the same host in both, and other
credentials, or another path, query or fragment of more than delimiters. -/
structure SameHost (isAlphanumeric : Char → Bool) (word word' : List Char) : Prop where
  split : ∃ before user user' host tail tail' : List Char,
    word = before ++ ':' :: '/' :: '/' :: (user ++ host ++ tail) ∧
    word' = before ++ ':' :: '/' :: '/' :: (user' ++ host ++ tail') ∧
    (∀ c ∈ user ++ host, isAuthorityChar c = true) ∧
    (∀ c ∈ user' ++ host, isAuthorityChar c = true) ∧
    host ≠ [] ∧ '@' ∉ host ∧ IsUserinfo user ∧ IsUserinfo user' ∧ (user = [] ↔ user' = []) ∧
    IsTail tail ∧ IsTail tail' ∧
    (∃ c ∈ tail, isDelimiter isAlphanumeric c = false) ∧
    ∃ c ∈ tail', isDelimiter isAlphanumeric c = false
  word : ∀ c ∈ word, isWhitespace c = false
  word' : ∀ c ∈ word', isWhitespace c = false

section

variable {isAlphanumeric : Char → Bool} {parse : List Char → Option ParsedUrl}
  {before auth tail tok tok' : List Char}

theorem isTabOrNewline_of_not_space {c : Char} (h : isWhitespace c = false) :
    isTabOrNewline c = false := by
  rw [Bool.eq_false_iff]
  intro htab
  simp only [isTabOrNewline, Bool.or_eq_true, beq_iff_eq] at htab
  rcases htab with (rfl | rfl) | rfl
  all_goals exact absurd h (by decide)

theorem trimMatches_url {p : Char → Bool} (hcolon : p ':' = false)
    (hkept : ∃ c ∈ tail, p c = false) :
    trimMatches p (before ++ ':' :: '/' :: '/' :: (auth ++ tail)) =
      before.dropWhile p ++ ':' :: '/' :: '/' :: (auth ++ tail.rdropWhile p) := by
  have hdrop : (before ++ ':' :: '/' :: '/' :: (auth ++ tail)).dropWhile p =
      before.dropWhile p ++ ':' :: '/' :: '/' :: (auth ++ tail) := by
    induction before with
    | nil => rw [List.nil_append, List.dropWhile_cons_of_neg (by rw [hcolon]; decide)]; rfl
    | cons d before ih =>
      rw [List.cons_append, List.dropWhile_cons, List.dropWhile_cons]
      split
      · exact ih
      · rfl
  have hassoc (x : List Char) : before.dropWhile p ++ ':' :: '/' :: '/' :: (auth ++ x) =
      before.dropWhile p ++ ':' :: '/' :: '/' :: auth ++ x := by simp
  rw [trimMatches, hdrop, hassoc, rdropWhile_within hkept, ← hassoc]

theorem trimMatches_subset {p : Char → Bool} (s : List Char) : trimMatches p s ⊆ s :=
  fun _ hc => (List.dropWhile_sublist p).subset ((List.rdropWhile_prefix p _).subset hc)

theorem redactWord_congr (hsep : Text.contains [':', '/', '/'] tok = true)
    (hsep' : Text.contains [':', '/', '/'] tok' = true)
    (hsame : (parse (trimMatches (isDelimiter isAlphanumeric) tok)).filter
        (fun u => u.host.isSome) =
      (parse (trimMatches (isDelimiter isAlphanumeric) tok')).filter fun u => u.host.isSome) :
    redactWord isAlphanumeric parse tok = redactWord isAlphanumeric parse tok' := by
  unfold redactWord
  rw [if_pos hsep, if_pos hsep']
  revert hsame
  generalize parse (trimMatches (isDelimiter isAlphanumeric) tok) = u
  generalize parse (trimMatches (isDelimiter isAlphanumeric) tok') = u'
  intro hsame
  rcases u with - | ⟨scheme, - | host, port⟩ <;> rcases u' with - | ⟨scheme', - | host', port'⟩ <;>
    simp [Option.filter] at hsame ⊢
  obtain ⟨rfl, rfl, rfl⟩ := hsame
  trivial

theorem redactWord_sameHost (hstd : FollowsStandard parse) (h : SameHost isAlphanumeric tok tok') :
    redactWord isAlphanumeric parse tok = redactWord isAlphanumeric parse tok' := by
  obtain ⟨hosted, hat_none, hparse⟩ := hstd
  obtain ⟨⟨before, user, user', host, tail, tail', rfl, rfl, hchars, hchars', hhost, hat, huser,
    huser', hnone, htail, htail', hkept, hkept'⟩, hword, hword'⟩ := h
  have hcolon : isDelimiter isAlphanumeric ':' = false := by simp [isDelimiter]
  have hcontains (x : List Char) :
      Text.contains [':', '/', '/'] (before ++ ':' :: '/' :: '/' :: x) = true :=
    Text.contains_iff.2 ⟨before, x, by simp⟩
  refine redactWord_congr (hcontains _) (hcontains _) ?_
  have htrimmed {t : List Char} (h : ∀ c ∈ t, isWhitespace c = false) :
      ∀ c ∈ trimMatches (isDelimiter isAlphanumeric) t, isWhitespace c = false :=
    fun c hc => h c (trimMatches_subset _ hc)
  have hspace := htrimmed hword
  have hspace' := htrimmed hword'
  rw [hparse _ hspace, hparse _ hspace']
  rw [trimMatches_url hcolon hkept] at hspace ⊢
  rw [trimMatches_url hcolon hkept'] at hspace' ⊢
  have htabs : ∀ c ∈ before.dropWhile (isDelimiter isAlphanumeric) ++
      tail.rdropWhile (isDelimiter isAlphanumeric) ++
      tail'.rdropWhile (isDelimiter isAlphanumeric), isTabOrNewline c = false := by
    simp only [List.forall_mem_append, List.forall_mem_cons] at hspace hspace' ⊢
    refine ⟨⟨fun c hc => ?_, fun c hc => ?_⟩, fun c hc => ?_⟩
    · exact isTabOrNewline_of_not_space (hspace.1 c hc)
    · exact isTabOrNewline_of_not_space (hspace.2.2.2.2.2 c hc)
    · exact isTabOrNewline_of_not_space (hspace'.2.2.2.2.2 c hc)
  have hsame := origin_of_authority hchars hchars' hhost hat huser huser' hnone
    (htail.rdropWhile hkept) (htail'.rdropWhile hkept') htabs
  rcases hsame with hsame | ⟨⟨x, hx, hxat⟩, ⟨y, hy, hyat⟩⟩
  · rw [hsame]
  · rw [hx, hy, Option.bind_some, Option.bind_some, hat_none _ _ hxat, hat_none _ _ hyat]

theorem redactWord_chain (hstd : FollowsStandard parse)
    (h : Relation.TransGen (SameHost isAlphanumeric) tok tok') :
    redactWord isAlphanumeric parse tok = redactWord isAlphanumeric parse tok' := by
  induction h with
  | single h => exact redactWord_sameHost hstd h
  | tail _ h ih => exact ih.trans (redactWord_sameHost hstd h)

end

/-- **Redaction keeps origins.**  Of the URLs with `://` in an error, whatever is about them, only
the scheme, host and port can be told from what is stored: not the credentials, nor path, query or
fragment.  What is logged is the error's words, addresses masked, or their first characters and an
ellipsis. -/
theorem redaction_keeps_origins (isAlphanumeric : Char → Bool)
    (parse : List Char → Option ParsedUrl) (hstd : FollowsStandard parse) :
    (∀ msg msg', (splitWhitespace msg).Forall₂
        (fun word word' => word = word' ∨
          Relation.TransGen (SameHost isAlphanumeric) word.toList word'.toList)
        (splitWhitespace msg') →
      redactSecrets isAlphanumeric parse msg = redactSecrets isAlphanumeric parse msg') ∧
    ∀ error, (logErrorSnippet error).toList.length ≤ maxLogChars + 1 ∧
      (logErrorSnippet error = maskAddresses error ∨ (logErrorSnippet error).toList =
        (maskAddresses error).toList.take maxLogChars ++ ['…']) := by
  constructor
  · intro msg msg' h
    unfold redactSecrets
    congr 1
    generalize splitWhitespace msg = words, splitWhitespace msg' = words' at h
    induction h with
    | nil => rfl
    | cons hword _ ih =>
      rw [List.map_cons, List.map_cons, ih]
      congr 2
      rcases hword with rfl | hchain
      · rfl
      · exact redactWord_chain hstd hchain
  · intro error
    unfold logErrorSnippet
    dsimp only
    split
    · rw [String.toList_ofList, List.length_append, List.length_take]
      exact ⟨by simp, .inr rfl⟩
    · next hshort => exact ⟨by omega, .inl rfl⟩

namespace Hook

/-- `Url::parse` of the URLs below. -/
def parse (s : List Char) : Option ParsedUrl :=
  (origin? s).bind fun o => if '@' ∈ o.2 then none else some ⟨o.1, some o.2, none⟩

theorem parse_standard : FollowsStandard parse := by
  refine ⟨fun scheme host => if '@' ∈ host then none else some ⟨scheme, some host, none⟩,
    fun scheme host h => if_pos h, fun s _ => ?_⟩
  unfold parse
  cases origin? s with
  | none => rfl
  | some o =>
    dsimp only [Option.bind_some]
    split <;> rfl

def webhook : String := "(https://hooks.slack.com/services/T01/B02/SECRET)"

def other : String := "(https://hooks.slack.com/services/T01/B02/OTHER)"

/-- As a JSON body may have it. -/
def escaped : String := "https:\\/\\/hooks.slack.com\\/services\\/T01\\/B02\\/SECRET"

end Hook

open Hook in
theorem redaction_keeps_origins_webhook :
    redactSecrets Char.isAlphanum parse webhook = redactSecrets Char.isAlphanum parse other := by
  have hwords : splitWhitespace webhook = [webhook] ∧ splitWhitespace other = [other] := by
    decide +kernel
  refine (redaction_keeps_origins Char.isAlphanum parse parse_standard).1 webhook other ?_
  rw [hwords.1, hwords.2]
  have hspace {s : String} (h : (s.toList.all fun c => !isWhitespace c) = true) :
      ∀ c ∈ s.toList, isWhitespace c = false :=
    fun c hc => by simpa using List.all_eq_true.mp h c hc
  have hhost : ∀ c ∈ [] ++ "hooks.slack.com".toList, isAuthorityChar c = true :=
    List.all_eq_true.mp (by decide +kernel)
  refine .cons (.inr (.single ⟨⟨"(https".toList, [], [], "hooks.slack.com".toList,
    "/services/T01/B02/SECRET)".toList, "/services/T01/B02/OTHER)".toList, by decide +kernel,
    by decide +kernel, hhost, hhost, by decide +kernel, by decide +kernel, .inl rfl, .inl rfl,
    Iff.rfl, ⟨'/', _, rfl, .inl rfl⟩, ⟨'/', _, rfl, .inl rfl⟩, ⟨'/', ?_, rfl⟩, ⟨'/', ?_, rfl⟩⟩,
    hspace (by decide +kernel), hspace (by decide +kernel)⟩)) .nil
  · exact List.mem_cons_self
  · exact List.mem_cons_self

open Hook in
/-- Slashes that are escaped make a URL just as well, and it is kept as it is; and an address is
no longer there to be a prefix. -/
theorem escaped_slashes_kept :
    origin? escaped.toList = some ("https".toList, "hooks.slack.com".toList) ∧
      redactSecrets Char.isAlphanum parse escaped = escaped ∧
      ¬ (logErrorSnippet "to a@b.co").toList <+:
        (redactSecrets Char.isAlphanum parse "to a@b.co").toList := by
  decide +kernel

end Uptimepage
