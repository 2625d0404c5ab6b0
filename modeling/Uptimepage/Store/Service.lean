import Mathlib.Tactic.Common

/-!
# Two services behind one interface

A service answers calls one after another, each from the state the last one left.
-/

/-- What a call answers, and the state it leaves. -/
abbrev Service (σ κ : Type) (ρ : κ → Type) := (c : κ) → σ → ρ c × σ

namespace Service

variable {σ τ κ : Type} {ρ ρ' : κ → Type}

def run (a : Service σ κ ρ) (s : σ) (calls : List κ) : σ := calls.foldl (fun s c => (a c s).2) s

/-- `P` holds of every call of a run that both make, in the states the call finds. -/
def Along (a : Service σ κ ρ) (b : Service τ κ ρ') (P : κ → σ → τ → Prop) :
    List κ → σ → τ → Prop
  | [], _, _ => True
  | c :: calls, s, t => P c s t ∧ Along a b P calls (a c s).2 (b c t).2

def Answers (a : Service σ κ ρ) (b : Service τ κ ρ') (Agree : (c : κ) → τ → ρ c → ρ' c → Prop)
    (c : κ) (s : σ) (t : τ) : Prop :=
  Agree c t (a c s).1 (b c t).1

/-- From related states, a clear call answers alike and leaves related states. -/
structure Simulation (a : Service σ κ ρ) (b : Service τ κ ρ') (Rel : σ → τ → Prop)
    (Clear : κ → σ → τ → Prop) (Agree : (c : κ) → τ → ρ c → ρ' c → Prop) : Prop where
  agree : ∀ {c s t}, Rel s t → Clear c s t → Answers a b Agree c s t
  rel : ∀ {c s t}, Rel s t → Clear c s t → Rel (a c s).2 (b c t).2

variable {a : Service σ κ ρ} {b : Service τ κ ρ'} {Rel : σ → τ → Prop}
  {Clear : κ → σ → τ → Prop} {Agree : (c : κ) → τ → ρ c → ρ' c → Prop}

namespace Simulation

theorem run (h : Simulation a b Rel Clear Agree) (calls : List κ) {s : σ} {t : τ}
    (hrel : Rel s t) (hclear : Along a b Clear calls s t) :
    Along a b (Answers a b Agree) calls s t ∧ Rel (a.run s calls) (b.run t calls) := by
  induction calls generalizing s t with
  | nil => exact ⟨trivial, hrel⟩
  | cons c calls ih =>
    obtain ⟨hc, hrest⟩ := hclear
    obtain ⟨hans, hend⟩ := ih (h.rel hrel hc) hrest
    exact ⟨⟨h.agree hrel hc, hans⟩, hend⟩

theorem keep (h : Simulation a b Rel Clear Agree) {Also : σ → τ → Prop}
    {Mild : κ → σ → τ → Prop}
    (hstep : ∀ {c s t}, Rel s t → Clear c s t → Mild c s t → Also s t →
      Also (a c s).2 (b c t).2)
    (calls : List κ) {s : σ} {t : τ} (hrel : Rel s t) (hclear : Along a b Clear calls s t)
    (hmild : Along a b Mild calls s t) (halso : Also s t) :
    Also (a.run s calls) (b.run t calls) := by
  induction calls generalizing s t with
  | nil => exact halso
  | cons c calls ih =>
    obtain ⟨hc, hrest⟩ := hclear
    obtain ⟨hm, hmrest⟩ := hmild
    exact ih (h.rel hrel hc) hrest hmrest (hstep hrel hc hm halso)

end Simulation

end Service
