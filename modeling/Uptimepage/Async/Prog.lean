import Mathlib.Data.List.Basic

/-!
# Programs that await calls

A `Prog S α` is the code of one task.  It returns a value, or it makes one
call of the signature `S` and goes on with the answer; between two calls it
only computes.  A call is the one place where another task can run, so an
interleaving of tasks is an order of their calls.
-/

namespace Async

/-- The calls a program can await, with the type of each answer. -/
structure Sig where
  Op : Type
  Res : Op → Type

inductive Prog (S : Sig) (α : Type) : Type
  | ret (a : α) : Prog S α
  | call (o : S.Op) (k : S.Res o → Prog S α) : Prog S α

namespace Prog

variable {S : Sig} {α β : Type}

def bind : Prog S α → (α → Prog S β) → Prog S β
  | ret a, f => f a
  | call o k, f => call o fun r => (k r).bind f

instance : Monad (Prog S) where
  pure := ret
  bind := bind

theorem bind_assoc {γ : Type} (p : Prog S α) (f : α → Prog S β) (g : β → Prog S γ) :
    (p.bind f).bind g = p.bind fun a => (f a).bind g := by
  induction p with
  | ret a => rfl
  | call o k ih => exact congrArg (call o) (funext ih)

/-- Every call the program can make satisfies `P` and every value it can return `Q`, as long
as the answers satisfy `A`. -/
def All (A : (o : S.Op) → S.Res o → Prop) (P : S.Op → Prop) (Q : α → Prop) : Prog S α → Prop
  | ret a => Q a
  | call o k => P o ∧ ∀ r, A o r → (k r).All A P Q

section
variable {A : (o : S.Op) → S.Res o → Prop} {P P' : S.Op → Prop}

theorem All.bind {Q : α → Prop} {Q' : β → Prop} {f : α → Prog S β} :
    ∀ {p : Prog S α}, p.All A P Q → (∀ a, Q a → (f a).All A P Q') → (p.bind f).All A P Q'
  | ret a, hp, hf => hf a hp
  | call _ _, hp, hf => ⟨hp.1, fun r hr => All.bind (hp.2 r hr) hf⟩

theorem All.mono {Q Q' : α → Prop} (hP : ∀ o, P o → P' o) (hQ : ∀ a, Q a → Q' a) :
    ∀ {p : Prog S α}, p.All A P Q → p.All A P' Q'
  | ret a, hp => hQ a hp
  | call o _, hp => ⟨hP o hp.1, fun r hr => All.mono hP hQ (hp.2 r hr)⟩

/-- Some call of the program may still satisfy `P`. -/
def May (A : (o : S.Op) → S.Res o → Prop) (P : S.Op → Prop) (p : Prog S α) : Prop :=
  ¬ p.All A (fun o => ¬ P o) fun _ => True

theorem May.of_cont {o : S.Op} {k : S.Res o → Prog S α} {r : S.Res o} (hr : A o r)
    (h : (k r).May A P) : (call o k).May A P :=
  fun hall => h (hall.2 r hr)

theorem May.of_call {o : S.Op} {k : S.Res o → Prog S α} (h : P o) : (call o k).May A P :=
  fun hall => hall.1 h

theorem All.not_may {F : S.Op → Prop} {Q : α → Prop} {p : Prog S α} (h : p.All A F Q)
    (hF : ∀ o, F o → ¬ P o) : ¬ p.May A P :=
  fun hmay => hmay (h.mono hF fun _ _ => trivial)

end

/-- The program makes no `P` call before a `G` call. -/
def Before (A : (o : S.Op) → S.Res o → Prop) (G P : S.Op → Prop) : Prog S α → Prop
  | ret _ => True
  | call o k => G o ∨ (¬ P o ∧ ∀ r, A o r → (k r).Before A G P)

section
variable {A : (o : S.Op) → S.Res o → Prop} {G P : S.Op → Prop}

theorem All.before {F : S.Op → Prop} {Q : α → Prop} (hF : ∀ o, F o → ¬ P o) :
    ∀ {p : Prog S α}, p.All A F Q → p.Before A G P
  | ret _, _ => trivial
  | call o _, hp => .inr ⟨hF o hp.1, fun r hr => All.before hF (hp.2 r hr)⟩

theorem Before.bind {f : α → Prog S β} :
    ∀ {p : Prog S α}, p.Before A G P → (∀ a, (f a).Before A G P) → (p.bind f).Before A G P
  | ret a, _, hf => hf a
  | call _ _, hp, hf => hp.imp_right fun h => ⟨h.1, fun r hr => Before.bind (h.2 r hr) hf⟩

end

def next : Prog S α → Option S.Op
  | ret _ => none
  | call o _ => some o

/-- `true` once the program has nothing left to call. -/
def isDone : Prog S α → Bool
  | ret _ => true
  | call _ _ => false

end Prog

/-- A program that ends in a value or in an error. -/
def Fallible (S : Sig) (E α : Type) : Type := Prog S (Except E α)

namespace Fallible

variable {S : Sig} {E α β : Type}

/-- Goes on with the value, or stops at the error. -/
def andThen (x : Fallible S E α) (f : α → Fallible S E β) : Fallible S E β :=
  Prog.bind x fun
    | .ok a => f a
    | .error e => Prog.ret (.error e)

instance : Monad (Fallible S E) where
  pure a := Prog.ret (.ok a)
  bind := andThen

theorem pure_bind (a : α) (f : α → Fallible S E β) : (pure a : Fallible S E α) >>= f = f a := rfl

theorem bind_assoc {γ : Type} (x : Fallible S E α) (f : α → Fallible S E β)
    (g : β → Fallible S E γ) : x >>= f >>= g = x >>= fun a => f a >>= g := by
  refine (Prog.bind_assoc x _ _).trans (congrArg (Prog.bind x) (funext fun r => ?_))
  cases r with
  | ok a => rfl
  | error e => rfl

/-- Runs `x` and returns its outcome, error included. -/
def attempt (x : Fallible S E α) : Fallible S E (Except E α) :=
  Prog.bind x fun r => Prog.ret (.ok r)

/-- Runs `x` to its end and drops what it returns. -/
def detach (x : Fallible S E α) : Prog S Unit :=
  Prog.bind x fun _ => Prog.ret ()

/-- A value satisfies `Q`; an error says nothing. -/
def okSat (Q : α → Prop) : Except E α → Prop
  | .ok a => Q a
  | .error _ => True

/-- `Prog.All` at a fallible program: `Q` is asked of a value, not of an error. -/
def All (A : (o : S.Op) → S.Res o → Prop) (P : S.Op → Prop) (Q : α → Prop)
    (x : Fallible S E α) : Prop := Prog.All A P (okSat Q) x

section
variable {A : (o : S.Op) → S.Res o → Prop} {P : S.Op → Prop} {Q : α → Prop} {Q' : β → Prop}

theorem all_pure {a : α} (h : Q a) : All A P Q (pure a : Fallible S E α) := h

theorem all_bind {x : Fallible S E α} {f : α → Fallible S E β}
    (hx : x.All A P Q) (hf : ∀ a, Q a → (f a).All A P Q') : All A P Q' (x >>= f) := by
  refine Prog.All.bind hx fun r hr => ?_
  cases r with
  | ok a => exact hf a hr
  | error e => trivial

theorem all_attempt {x : Fallible S E α} (hx : x.All A P Q) :
    All A P (okSat Q) (attempt x) :=
  Prog.All.bind hx fun _ hr => hr

theorem all_detach {x : Fallible S E α} (hx : x.All A P Q) :
    Prog.All A P (fun _ => True) (detach x) :=
  Prog.All.bind hx fun _ _ => trivial

end

/-- `All`, of a program that cannot end in an error. -/
def Sure (A : (o : S.Op) → S.Res o → Prop) (P : S.Op → Prop) (x : Fallible S E α) : Prop :=
  Prog.All A P (fun r => ∃ a, r = .ok a) x

section
variable {A : (o : S.Op) → S.Res o → Prop} {P : S.Op → Prop}

theorem sure_pure {a : α} : Sure A P (pure a : Fallible S E α) := ⟨a, rfl⟩

theorem sure_bind {x : Fallible S E α} {f : α → Fallible S E β} (hx : x.Sure A P)
    (hf : ∀ a, (f a).Sure A P) : Sure A P (x >>= f) := by
  refine Prog.All.bind hx fun r hr => ?_
  obtain ⟨a, rfl⟩ := hr
  exact hf a

theorem sure_attempt {Q : α → Prop} {x : Fallible S E α} (hx : x.All A P Q) :
    Sure A P (attempt x) :=
  Prog.All.bind hx fun r _ => ⟨r, rfl⟩

end

end Fallible

end Async
