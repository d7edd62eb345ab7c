import Mathlib

/-!
# Programs as trees of calls

A program either returns or makes one call and continues with the answer. What
a call does is left to a handler, so one program text can be run to completion,
cut after any number of calls, or interleaved with other programs.
-/
namespace CallTrees

/-- `R e` is the type of the answers to the call `e`. -/
inductive Prog (E : Type) (R : E → Type) (α : Type) : Type where
  | ret (a : α) : Prog E R α
  | call (e : E) (k : R e → Prog E R α) : Prog E R α

section Syntax
variable {E : Type} {R : E → Type} {α β γ : Type}

namespace Prog

def bind : Prog E R α → (α → Prog E R β) → Prog E R β
  | .ret a, f => f a
  | .call e k, f => .call e fun r => (k r).bind f

/-- One call whose answer is the result. -/
def perform (e : E) : Prog E R (R e) := .call e .ret

instance : Monad (Prog E R) where
  pure := .ret
  bind := .bind

@[simp] theorem pure_eq (a : α) : (pure a : Prog E R α) = .ret a := rfl

@[simp] theorem ret_bind (a : α) (f : α → Prog E R β) : (Prog.ret a >>= f) = f a := rfl

@[simp] theorem call_bind (e : E) (k : R e → Prog E R α) (f : α → Prog E R β) :
    (Prog.call e k >>= f) = .call e fun r => k r >>= f := rfl

@[simp] theorem perform_bind (e : E) (f : R e → Prog E R β) :
    (perform e >>= f) = .call e f := rfl

theorem bind_assoc (p : Prog E R α) (f : α → Prog E R β) (g : β → Prog E R γ) :
    (p >>= f >>= g) = (p >>= fun a => f a >>= g) := by
  induction p with
  | ret a => rfl
  | call e k ih => exact congrArg (Prog.call e) (funext ih)

end Prog
end Syntax

section Runs
variable {E : Type} {R : E → Type} {σ α β : Type}
variable (exec : (e : E) → σ → R e × σ)

def run : Prog E R α → σ → α × σ
  | .ret a, w => (a, w)
  | .call e k, w => run (k (exec e w).1) (exec e w).2

@[simp] theorem run_ret (a : α) (w : σ) : run exec (.ret a : Prog E R α) w = (a, w) := rfl

@[simp] theorem run_call (e : E) (k : R e → Prog E R α) (w : σ) :
    run exec (.call e k) w = run exec (k (exec e w).1) (exec e w).2 := rfl

@[simp] theorem run_bind (p : Prog E R α) (f : α → Prog E R β) (w : σ) :
    run exec (p >>= f) w = run exec (f (run exec p w).1) (run exec p w).2 := by
  induction p generalizing w with
  | ret a => rfl
  | call e k ih => exact ih _ _

/-- The state after at most `n` calls: what a crash after the `n`-th call leaves,
and what an observer sees there. -/
def upTo : Nat → Prog E R α → σ → σ
  | 0, _, w => w
  | _ + 1, .ret _, w => w
  | n + 1, .call e k, w => upTo n (k (exec e w).1) (exec e w).2

/-- `I` holds in every state the run of the program passes through. -/
def Through (I : σ → Prop) : Prog E R α → σ → Prop
  | .ret _, w => I w
  | .call e k, w => I w ∧ Through I (k (exec e w).1) (exec e w).2

theorem Through.start {I : σ → Prop} {p : Prog E R α} {w : σ}
    (h : Through exec I p w) : I w := by
  cases p with
  | ret a => exact h
  | call e k => exact h.1

theorem through_iff_upTo (I : σ → Prop) (p : Prog E R α) (w : σ) :
    Through exec I p w ↔ ∀ n, I (upTo exec n p w) := by
  induction p generalizing w with
  | ret a =>
    constructor
    · intro h n
      cases n <;> exact h
    · intro h
      exact h 0
  | call e k ih =>
    constructor
    · rintro ⟨hw, hk⟩ n
      cases n with
      | zero => exact hw
      | succ n => exact (ih _ _).mp hk n
    · intro h
      exact ⟨h 0, (ih _ _).mpr fun n => h (n + 1)⟩

theorem through_bind (I : σ → Prop) (p : Prog E R α) (f : α → Prog E R β) (w : σ) :
    Through exec I (p >>= f) w ↔
      Through exec I p w ∧ Through exec I (f (run exec p w).1) (run exec p w).2 := by
  induction p generalizing w with
  | ret a => exact ⟨fun h => ⟨h.start, h⟩, fun h => h.2⟩
  | call e k ih =>
    change I w ∧ Through exec I (k _ >>= f) _ ↔ _
    rw [ih, ← and_assoc]
    rfl

theorem Through.mono {I J : σ → Prop} (hIJ : ∀ w, I w → J w) {p : Prog E R α} {w : σ}
    (h : Through exec I p w) : Through exec J p w := by
  rw [through_iff_upTo] at h ⊢
  exact fun n => hIJ _ (h n)

/-- Every call of the program is one `C` admits, as long as the answers are
ones `A` allows. -/
def Only (A : (e : E) → R e → Prop) (C : E → Prop) : Prog E R α → Prop
  | .ret _ => True
  | .call e k => C e ∧ ∀ r, A e r → Only A C (k r)

theorem only_call {A : (e : E) → R e → Prop} {C : E → Prop} {e : E} {f : R e → Prog E R α} :
    Only A C (Prog.perform e >>= f) ↔ C e ∧ ∀ r, A e r → Only A C (f r) := Iff.rfl

theorem only_bind {A : (e : E) → R e → Prop} {C : E → Prop} {p : Prog E R α}
    {f : α → Prog E R β} (hp : Only A C p) (hf : ∀ a, Only A C (f a)) :
    Only A C (p >>= f) := by
  induction p with
  | ret a => exact hf a
  | call e k ih => exact ⟨hp.1, fun r hr => ih r (hp.2 r hr)⟩

/-- The frame rule: what no admitted call changes, no state of the run changes. -/
theorem Only.mono {A : (e : E) → R e → Prop} {C C' : E → Prop} (weaker : ∀ e, C e → C' e)
    {p : Prog E R α} (h : Only A C p) : Only A C' p := by
  induction p with
  | ret a => exact trivial
  | call e k ih => exact ⟨weaker e h.1, fun r honest => ih r (h.2 r honest)⟩

theorem Only.through_frame {ω : Type} {A : (e : E) → R e → Prop} {C : E → Prop}
    (observe : σ → ω) (answers : ∀ e w, A e (exec e w).1)
    (frame : ∀ e w, C e → observe (exec e w).2 = observe w)
    {p : Prog E R α} (h : Only A C p) (w : σ) :
    Through exec (fun w' => observe w' = observe w) p w := by
  induction p generalizing w with
  | ret a => rfl
  | call e k ih =>
    refine ⟨rfl, (ih _ (h.2 _ (answers e w)) _).mono exec fun w' hw' => ?_⟩
    exact hw'.trans (frame e w h.1)

/-- The state a run ends in is one it passes through. -/
theorem Through.final {I : σ → Prop} {p : Prog E R α} {w : σ}
    (h : Through exec I p w) : I (run exec p w).2 := by
  induction p generalizing w with
  | ret a => exact h
  | call e k ih => exact ih _ h.2

theorem Only.run_frame {ω : Type} {A : (e : E) → R e → Prop} {C : E → Prop}
    (observe : σ → ω) (answers : ∀ e w, A e (exec e w).1)
    (frame : ∀ e w, C e → observe (exec e w).2 = observe w)
    {p : Prog E R α} (h : Only A C p) (w : σ) :
    observe (run exec p w).2 = observe w :=
  (h.through_frame exec observe answers frame w).final exec

/-- What every admitted call keeps, a run keeps. -/
theorem Only.run_invariant {A : (e : E) → R e → Prop} {C : E → Prop} {I : σ → Prop}
    (answers : ∀ e w, A e (exec e w).1) (step : ∀ e w, C e → I w → I (exec e w).2)
    {p : Prog E R α} (h : Only A C p) {w : σ} (start : I w) : I (run exec p w).2 := by
  induction p generalizing w with
  | ret a => exact start
  | call e k ih => exact ih _ (h.2 _ (answers e w)) (step e w h.1 start)

/-- What every call establishes between the states around it, a run does. -/
theorem run_related {P : σ → σ → Prop} (refl : ∀ w, P w w)
    (trans : ∀ {w w' w''}, P w w' → P w' w'' → P w w'')
    (step : ∀ e w, P w (exec e w).2) (p : Prog E R α) (w : σ) : P w (run exec p w).2 := by
  induction p generalizing w with
  | ret a => exact refl w
  | call e k ih => exact trans (step e w) (ih _ _)

end Runs

section Translation
variable {E E' : Type} {R : E → Type} {R' : E' → Type} {α : Type}

/-- Every call of one language answered by a program of another. -/
def Prog.lift (f : (e : E) → Prog E' R' (R e)) : Prog E R α → Prog E' R' α
  | .ret a => .ret a
  | .call e k => f e >>= fun r => (k r).lift f

end Translation

section Protocols
variable {E : Type} {R : E → Type} {S : Type} {β γ : Type}
variable {A : (e : E) → R e → Prop} {allows : S → E → Prop} {note : S → (e : E) → R e → S}

/-- The program keeps to a protocol: from the note `s` on, every call is allowed
by what has been answered so far, and it returns where `Q` holds. -/
def Follows (A : (e : E) → R e → Prop) (allows : S → E → Prop)
    (note : S → (e : E) → R e → S) {β : Type} :
    Prog E R β → S → (β → S → Prop) → Prop
  | .ret a, s, Q => Q a s
  | .call e k, s, Q => allows s e ∧ ∀ r, A e r → Follows A allows note (k r) (note s e r) Q

theorem follows_call {e : E} {f : R e → Prog E R β} {s : S} {Q : β → S → Prop} :
    Follows A allows note (Prog.perform e >>= f) s Q ↔
      allows s e ∧ ∀ r, A e r → Follows A allows note (f r) (note s e r) Q := Iff.rfl

/-- Calls that are always allowed and never noted leave the note alone. -/
theorem Only.follows {C : E → Prop} (allowed : ∀ s e, C e → allows s e)
    (unnoted : ∀ s e r, C e → note s e r = s) {p : Prog E R β} (h : Only A C p) (s : S) :
    Follows A allows note p s fun _ s' => s' = s := by
  induction p generalizing s with
  | ret a => exact rfl
  | call e k ih =>
    refine ⟨allowed s e h.1, fun r hr => ?_⟩
    rw [unnoted s e r h.1]
    exact ih r (h.2 r hr) s

/-- What a protocol allows anywhere is all that a program keeping to it does. -/
theorem Follows.only {C : E → Prop} (allowed : ∀ s e, allows s e → C e) {p : Prog E R β} {s : S}
    {Q : β → S → Prop} (h : Follows A allows note p s Q) : Only A C p := by
  induction p generalizing s with
  | ret a => exact trivial
  | call e k ih => exact ⟨allowed s e h.1, fun r hr => ih r (h.2 r hr)⟩

theorem Follows.mono {p : Prog E R β} {s : S} {Q Q' : β → S → Prop}
    (hQ : ∀ a s, Q a s → Q' a s) (h : Follows A allows note p s Q) :
    Follows A allows note p s Q' := by
  induction p generalizing s with
  | ret a => exact hQ a s h
  | call e k ih => exact ⟨h.1, fun r hr => ih r (h.2 r hr)⟩

theorem Follows.bind {p : Prog E R β} {f : β → Prog E R γ} {s : S}
    {Q : β → S → Prop} {Q' : γ → S → Prop} (h : Follows A allows note p s Q)
    (hf : ∀ a s, Q a s → Follows A allows note (f a) s Q') :
    Follows A allows note (p >>= f) s Q' := by
  induction p generalizing s with
  | ret a => exact hf a s h
  | call e k ih => exact ⟨h.1, fun r hr => ih r (h.2 r hr)⟩

/-- Every call is one `C` admits, and the result satisfies `Q`. -/
def Silent (A : (e : E) → R e → Prop) (C : E → Prop) (p : Prog E R β) (Q : β → Prop) : Prop :=
  Follows A (fun (_ : Unit) e => C e) (fun s _ _ => s) p () fun b _ => Q b

/-- A silent program keeps to every protocol that admits its calls and notes
none of them. -/
theorem Silent.follows {C : E → Prop} {p : Prog E R β} {Q : β → Prop} (h : Silent A C p Q)
    (allowed : ∀ s e, C e → allows s e) (unnoted : ∀ s e r, C e → note s e r = s) (s : S) :
    Follows A allows note p s fun b s' => s' = s ∧ Q b := by
  induction p generalizing s with
  | ret b => exact ⟨rfl, h⟩
  | call e k ih =>
    refine ⟨allowed s e h.1, fun r hr => ?_⟩
    rw [unnoted s e r h.1]
    exact ih r (h.2 r hr) s

/-- Fewer answers are to be expected. -/
theorem Silent.weaken {A' : (e : E) → R e → Prop} {C : E → Prop} {p : Prog E R β} {Q : β → Prop}
    (h : Silent A C p Q) (weaker : ∀ e r, A' e r → A e r) : Silent A' C p Q := by
  induction p with
  | ret b => exact h
  | call e k ih => exact ⟨h.1, fun r hr => ih r (h.2 r (weaker e r hr))⟩

theorem Silent.bind {C : E → Prop} {p : Prog E R β} {f : β → Prog E R γ} {Q : β → Prop}
    {Q' : γ → Prop} (h : Silent A C p Q) (hf : ∀ b, Q b → Silent A C (f b) Q') :
    Silent A C (p >>= f) Q' :=
  Follows.bind h fun b _ hb => hf b hb

/-- What every allowed call preserves between the note and the state holds
throughout a run and at its end. -/
theorem Follows.run_invariant {σ : Type} {exec : (e : E) → σ → R e × σ} {I : S → σ → Prop}
    (step : ∀ s e w, allows s e → I s w →
      A e (exec e w).1 ∧ I (note s e (exec e w).1) (exec e w).2)
    {p : Prog E R β} {s : S} {Q : β → S → Prop} {w : σ}
    (h : Follows A allows note p s Q) (hw : I s w) :
    Through exec (fun w' => ∃ s', I s' w') p w ∧
      ∃ s', Q (run exec p w).1 s' ∧ I s' (run exec p w).2 := by
  induction p generalizing s w with
  | ret a => exact ⟨⟨s, hw⟩, s, h, hw⟩
  | call e k ih =>
    obtain ⟨answer, kept⟩ := step s e w h.1 hw
    obtain ⟨through, final⟩ := ih _ (h.2 _ answer) kept
    exact ⟨⟨⟨s, hw⟩, through⟩, final⟩

/-- A call that is noted. -/
def noted {σ : Type} (exec : (e : E) → σ → R e × σ) (note : S → (e : E) → R e → S) (e : E)
    (x : S × σ) : R e × (S × σ) :=
  ((exec e x.2).1, note x.1 e (exec e x.2).1, (exec e x.2).2)

theorem run_noted {σ : Type} (exec : (e : E) → σ → R e × σ) (note : S → (e : E) → R e → S)
    (p : Prog E R β) (s : S) (w : σ) :
    (run (noted exec note) p (s, w)).1 = (run exec p w).1 ∧
      (run (noted exec note) p (s, w)).2.2 = (run exec p w).2 := by
  induction p generalizing s w with
  | ret a => exact ⟨rfl, rfl⟩
  | call e k ih => exact ih _ _ _

/-- The note at the end of a run, with what its calls preserve. -/
theorem Follows.run_noted {σ : Type} {exec : (e : E) → σ → R e × σ} {I : S → σ → Prop}
    (step : ∀ s e w, allows s e → I s w →
      A e (exec e w).1 ∧ I (note s e (exec e w).1) (exec e w).2)
    {p : Prog E R β} {s : S} {Q : β → S → Prop} {w : σ}
    (h : Follows A allows note p s Q) (hw : I s w) :
    Q (run exec p w).1 (run (noted exec note) p (s, w)).2.1 ∧
      I (run (noted exec note) p (s, w)).2.1 (run exec p w).2 := by
  induction p generalizing s w with
  | ret a => exact ⟨h, hw⟩
  | call e k ih =>
    obtain ⟨answer, kept⟩ := step s e w h.1 hw
    exact ih _ (h.2 _ answer) kept

end Protocols

end CallTrees
