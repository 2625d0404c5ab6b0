import Uptimepage.Targets.Check

/-!
# The SSRF guard

`security/ssrf.rs`: what a guard lets through.  An IPv6 address that carries an IPv4 address
(`Carries`) is blocked whenever that one is; a guard with `allowPrivate` lets everything through.
-/

namespace Uptimepage.Security

open Targets (IpAddr isBlockedIp isBlockedV4 isBlockedEmbedded CheckEnv checkIp)

inductive SsrfError
  | blockedAddress (ip : IpAddr)
  | allBlocked (host : String)
deriving DecidableEq

structure SsrfGuard where
  allowPrivate : Bool
deriving DecidableEq

namespace SsrfGuard

/-- The production default. -/
def strict : SsrfGuard := ⟨false⟩

def relaxedForTests : SsrfGuard := ⟨true⟩

def allow (guard : SsrfGuard) (ip : IpAddr) : Bool := guard.allowPrivate || !isBlockedIp ip

def check (guard : SsrfGuard) (ip : IpAddr) : Except SsrfError Unit :=
  if guard.allow ip then .ok () else .error (.blockedAddress ip)

def filter (guard : SsrfGuard) (host : String) (addrs : List IpAddr) :
    Except SsrfError (List IpAddr) :=
  if guard.allowPrivate then .ok addrs
  else
    let kept := addrs.filter fun ip => !isBlockedIp ip
    if kept.isEmpty then .error (.allBlocked host) else .ok kept

end SsrfGuard

/-! ## Embedded addresses -/

/-- Two octets of an IPv4 address as a segment. -/
def segment (hi lo : UInt8) : UInt16 := hi.toUInt16 <<< 8 ||| lo.toUInt16

/-- The IPv6 addresses that carry the IPv4 address `a.b.c.d`. -/
inductive Carries (a b c d : UInt8) : IpAddr → Prop
  | mapped : Carries a b c d (.v6 0 0 0 0 0 0xffff (segment a b) (segment c d))
  | compatible : Carries a b c d (.v6 0 0 0 0 0 0 (segment a b) (segment c d))
  | sixToFour (s3 s4 s5 s6 s7 : UInt16) :
    Carries a b c d (.v6 0x2002 (segment a b) (segment c d) s3 s4 s5 s6 s7)
  | nat64 : Carries a b c d (.v6 0x64 0xff9b 0 0 0 0 (segment a b) (segment c d))

theorem segment_toNat (hi lo : UInt8) : (segment hi lo).toNat = hi.toNat * 256 + lo.toNat := by
  have hhi := hi.toNat_lt
  have hlo := lo.toNat_lt
  have hshift : hi.toNat <<< 8 = 2 ^ 8 * hi.toNat := by rw [Nat.shiftLeft_eq]; omega
  simp only [segment, UInt16.toNat_or, UInt16.toNat_shiftLeft, UInt8.toNat_toUInt16]
  have hsmall : hi.toNat <<< ((8 : UInt16).toNat % 16) % 2 ^ 16 = 2 ^ 8 * hi.toNat := by
    rw [show (8 : UInt16).toNat % 16 = 8 from rfl, hshift, Nat.mod_eq_of_lt (by omega)]
  rw [hsmall, ← Nat.two_pow_add_eq_or_of_lt hlo]
  omega

theorem segment_hi (hi lo : UInt8) : (segment hi lo >>> 8).toUInt8 = hi := by
  have hhi := hi.toNat_lt
  have hlo := lo.toNat_lt
  apply UInt8.toNat_inj.mp
  rw [UInt16.toNat_toUInt8, UInt16.toNat_shiftRight, segment_toNat,
    show (8 : UInt16).toNat % 16 = 8 from rfl, Nat.shiftRight_eq_div_pow]
  omega

theorem segment_lo (hi lo : UInt8) : (segment hi lo).toUInt8 = lo := by
  have hlo := lo.toNat_lt
  apply UInt8.toNat_inj.mp
  rw [UInt16.toNat_toUInt8, segment_toNat]
  omega

theorem isBlockedEmbedded_segment (a b c d : UInt8) :
    isBlockedEmbedded (segment a b) (segment c d) = isBlockedV4 a b c d := by
  rw [isBlockedEmbedded, segment_hi, segment_lo, segment_hi, segment_lo]

theorem isBlockedIp_of_carries {a b c d : UInt8} {ip : IpAddr} (h : Carries a b c d ip)
    (hblocked : isBlockedV4 a b c d = true) : isBlockedIp ip = true := by
  rw [← isBlockedEmbedded_segment] at hblocked
  cases h with
  | mapped => simpa [isBlockedIp] using hblocked
  | compatible => simp [isBlockedIp]
  | sixToFour s3 s4 s5 s6 s7 =>
    have hrange : ¬ ((0x2002 : UInt16) >>> 8 = 0xff ∨ (0x2002 : UInt16) &&& 0xfe00 = 0xfc00 ∨
      (0x2002 : UInt16) &&& 0xffc0 = 0xfe80) := by decide
    simpa [isBlockedIp, or_assoc, hrange] using hblocked
  | nat64 =>
    have hrange : ¬ ((0x64 : UInt16) >>> 8 = 0xff ∨ (0x64 : UInt16) &&& 0xfe00 = 0xfc00 ∨
      (0x64 : UInt16) &&& 0xffc0 = 0xfe80) := by decide
    simpa [isBlockedIp, or_assoc, hrange] using hblocked

/-! ## The filter -/

theorem filter_strict (host : String) (addrs : List IpAddr) :
    (∀ kept, SsrfGuard.strict.filter host addrs = .ok kept →
        kept = addrs.filter fun ip => !isBlockedIp ip) ∧
      ((∃ e, SsrfGuard.strict.filter host addrs = .error e) ↔
        ∀ ip ∈ addrs, isBlockedIp ip = true) := by
  have hempty : (addrs.filter fun ip => !isBlockedIp ip) = [] ↔
      ∀ ip ∈ addrs, isBlockedIp ip = true := by
    simp [List.filter_eq_nil_iff]
  simp only [SsrfGuard.filter, SsrfGuard.strict, Bool.false_eq_true, if_false,
    List.isEmpty_iff]
  split
  · next hnone => exact ⟨nofun, iff_of_true ⟨_, rfl⟩ (hempty.mp hnone)⟩
  · next hsome =>
    refine ⟨?_, iff_of_false nofun (mt hempty.mpr hsome)⟩
    intro kept h
    cases h
    rfl

/-- **SSRF blocking sees through IPv6 embeddings.**  A guard that blocks keeps exactly what is not
blocked, in order, and fails where nothing is left; a guard of an operator lets all through. -/
theorem ssrf_embedded :
    (∀ (a b c d : UInt8) (ip : IpAddr), Carries a b c d ip →
      isBlockedIp (.v4 a b c d) = true → isBlockedIp ip = true) ∧
    (∀ (guard : SsrfGuard) (host : String) (addrs : List IpAddr),
      if guard.allowPrivate then guard.filter host addrs = .ok addrs
      else
        (∀ kept, guard.filter host addrs = .ok kept →
          kept = addrs.filter fun ip => !isBlockedIp ip) ∧
        ((∃ e, guard.filter host addrs = .error e) ↔ ∀ ip ∈ addrs, isBlockedIp ip = true)) := by
  refine ⟨fun a b c d ip h => isBlockedIp_of_carries h, ?_⟩
  intro guard host addrs
  cases guard with
  | mk allowPrivate =>
    cases allowPrivate with
    | true => rfl
    | false => exact filter_strict host addrs

theorem ssrf_embedded_metadata :
    isBlockedIp (.v6 0x64 0xff9b 0 0 0 0 (segment 169 254) (segment 169 254)) = true :=
  ssrf_embedded.1 169 254 169 254 _ .nat64 (by decide)

/-- A guard that allows private addresses keeps a blocked one, and does not fail on no address. -/
theorem relaxed_keeps_blocked :
    isBlockedIp (.v4 127 0 0 1) = true ∧
      SsrfGuard.relaxedForTests.filter "localhost" [.v4 127 0 0 1] = .ok [.v4 127 0 0 1] ∧
      SsrfGuard.relaxedForTests.filter "localhost" [] = .ok [] := by
  refine ⟨by decide, rfl, rfl⟩

end Uptimepage.Security
