import CertMate.CallTrees

/-!
# What a run does, call by call

Rules for how a run ends, for what holds at every call of it, and for the number of
its calls that have a bad answer.
-/
namespace RunTriples
open CallTrees

section Outcomes
variable {E : Type} {R : E → Type} {σ α β : Type}

/-- The run of the program ends with `Q`. -/
def Yields (exec : (e : E) → σ → R e × σ) (p : Prog E R α) (w : σ) (Q : α → σ → Prop) : Prop :=
  Q (run exec p w).1 (run exec p w).2

/-- `C` holds of every call, in the state in which it is made. -/
def Along (exec : (e : E) → σ → R e × σ) (C : E → σ → Prop) : Prog E R α → σ → Prop
  | .ret _, _ => True
  | .call e k, w => C e w ∧ Along exec C (k (exec e w).1) (exec e w).2

/-- `C` holds of every call of the run, and it ends with `Q`. -/
def Goes (exec : (e : E) → σ → R e × σ) (C : E → σ → Prop) (p : Prog E R α) (w : σ)
    (Q : α → σ → Prop) : Prop := Along exec C p w ∧ Yields exec p w Q

variable {exec : (e : E) → σ → R e × σ} {p : Prog E R α} {f : α → Prog E R β} {w : σ}

theorem yields_bind {Q : β → σ → Prop} :
    Yields exec (p >>= f) w Q ↔ Yields exec p w fun a w' => Yields exec (f a) w' Q := by
  unfold Yields
  rw [run_bind]

theorem Yields.mono {Q Q' : α → σ → Prop} (h : Yields exec p w Q)
    (weaker : ∀ a w', Q a w' → Q' a w') : Yields exec p w Q' := weaker _ _ h

theorem Yields.and {Q Q' : α → σ → Prop} (h : Yields exec p w Q) (h' : Yields exec p w Q') :
    Yields exec p w fun a w' => Q a w' ∧ Q' a w' := ⟨h, h'⟩

theorem Yields.bind {P : α → σ → Prop} {Q : β → σ → Prop} (h : Yields exec p w P)
    (next : ∀ a w', P a w' → Yields exec (f a) w' Q) : Yields exec (p >>= f) w Q :=
  yields_bind.mpr (h.mono next)

theorem along_bind {C : E → σ → Prop} :
    Along exec C (p >>= f) w ↔
      Along exec C p w ∧ Along exec C (f (run exec p w).1) (run exec p w).2 := by
  induction p generalizing w with
  | ret a => exact ⟨fun h => ⟨trivial, h⟩, fun h => h.2⟩
  | call e k ih =>
    change C e w ∧ Along exec C (k _ >>= f) _ ↔ _
    rw [ih, ← and_assoc]
    rfl

theorem Goes.mono {C : E → σ → Prop} {Q Q' : α → σ → Prop} (h : Goes exec C p w Q)
    (weaker : ∀ a w', Q a w' → Q' a w') : Goes exec C p w Q' := ⟨h.1, h.2.mono weaker⟩

/-- What follows may use which run it is that has ended. -/
theorem Goes.bind {C : E → σ → Prop} {P : α → σ → Prop} {Q : β → σ → Prop} (h : Goes exec C p w P)
    (next : ∀ a w', run exec p w = (a, w') → P a w' → Goes exec C (f a) w' Q) :
    Goes exec C (p >>= f) w Q := by
  obtain ⟨along, ends⟩ := next _ _ rfl h.2
  exact ⟨along_bind.mpr ⟨h.1, along⟩, yields_bind.mpr ends⟩

theorem goes_call {C : E → σ → Prop} {e : E} {f : R e → Prog E R β} {Q : β → σ → Prop}
    (here : C e w) (next : Goes exec C (f (exec e w).1) (exec e w).2 Q) :
    Goes exec C (Prog.perform e >>= f) w Q := ⟨⟨here, next.1⟩, next.2⟩

theorem Along.and {C C' : E → σ → Prop} (h : Along exec C p w) (h' : Along exec C' p w) :
    Along exec (fun e w => C e w ∧ C' e w) p w := by
  induction p generalizing w with
  | ret a => exact trivial
  | call e k ih => exact ⟨⟨h.1, h'.1⟩, ih _ h.2 h'.2⟩

theorem Along.mono {C C' : E → σ → Prop} (weaker : ∀ e w, C e w → C' e w)
    (h : Along exec C p w) : Along exec C' p w := by
  induction p generalizing w with
  | ret a => exact trivial
  | call e k ih => exact ⟨weaker e w h.1, ih _ h.2⟩

theorem along_all {C : E → σ → Prop} (h : ∀ e w, C e w) (p : Prog E R α) (w : σ) :
    Along exec C p w := by
  induction p generalizing w with
  | ret a => exact trivial
  | call e k ih => exact ⟨h e w, ih _ _⟩

theorem along_under {C : E → σ → Prop} {clean : Prop} (h : clean → Along exec C p w) :
    Along exec (fun e w => clean → C e w) p w := by
  induction p generalizing w with
  | ret a => exact trivial
  | call e k ih => exact ⟨fun held => (h held).1, ih _ fun held => (h held).2⟩

/-- What the protocol allows where its invariant holds is so along the run. -/
theorem along_of_follows {S : Type} {A : (e : E) → R e → Prop} {allows : S → E → Prop}
    {note : S → (e : E) → R e → S} {I : S → σ → Prop} {C : E → σ → Prop}
    (step : ∀ s e w, allows s e → I s w →
      A e (exec e w).1 ∧ I (note s e (exec e w).1) (exec e w).2)
    (admitted : ∀ s e w, allows s e → I s w → C e w) {s : S} {Q : α → S → Prop}
    (h : Follows A allows note p s Q) (here : I s w) : Along exec C p w := by
  induction p generalizing s w with
  | ret a => exact trivial
  | call e k ih =>
    obtain ⟨answer, kept⟩ := step s e w h.1 here
    exact ⟨admitted s e w h.1 here, ih _ (h.2 _ answer) kept⟩

/-- The invariant of a protocol, in a run whose calls all meet `C`. -/
theorem Along.run_invariant {S : Type} {A : (e : E) → R e → Prop} {allows : S → E → Prop}
    {note : S → (e : E) → R e → S} {I : S → σ → Prop} {C : E → σ → Prop}
    (step : ∀ s e w, allows s e → C e w → I s w →
      A e (exec e w).1 ∧ I (note s e (exec e w).1) (exec e w).2) {s : S} {Q : α → S → Prop}
    (along : Along exec C p w) (h : Follows A allows note p s Q) (here : I s w) :
    ∃ s', Q (run exec p w).1 s' ∧ I s' (run exec p w).2 := by
  induction p generalizing s w with
  | ret a => exact ⟨s, h, here⟩
  | call e k ih =>
    obtain ⟨answer, kept⟩ := step s e w h.1 along.1 here
    exact ih _ along.2 (h.2 _ answer) kept

/-- Whether `c` says yes to every call of the run. -/
def checks (exec : (e : E) → σ → R e × σ) (c : E → σ → Bool) : Prog E R α → σ → Bool
  | .ret _, _ => true
  | .call e k, w => c e w && checks exec c (k (exec e w).1) (exec e w).2

theorem along_of_checks {c : E → σ → Bool} (h : checks exec c p w = true) :
    Along exec (fun e w => c e w = true) p w := by
  induction p generalizing w with
  | ret a => exact trivial
  | call e k ih =>
    obtain ⟨here, rest⟩ := Bool.and_eq_true_iff.mp h
    exact ⟨here, ih _ rest⟩

end Outcomes

section Counting
variable {E : Type} {R : E → Type} {σ α : Type}

def tally (bad : (e : E) → R e → Bool) (n : Nat) (e : E) (r : R e) : Nat :=
  if bad e r then n + 1 else n

/-- A run with the number of bad answers beside the state. -/
abbrev counted (exec : (e : E) → σ → R e × σ) (bad : (e : E) → R e → Bool) :
    (e : E) → Nat × σ → R e × (Nat × σ) :=
  noted exec (tally bad)

def count (exec : (e : E) → σ → R e × σ) (bad : (e : E) → R e → Bool) (p : Prog E R α)
    (w : σ) : Nat :=
  (run (counted exec bad) p (0, w)).2.1

theorem counted_state {exec : (e : E) → σ → R e × σ} {bad : (e : E) → R e → Bool}
    (p : Prog E R α) (n : Nat) (w : σ) :
    Yields (counted exec bad) p (n, w) fun a x => run exec p w = (a, x.2) := by
  obtain ⟨answer, state⟩ := run_noted exec (tally bad) p n w
  exact Prod.ext answer.symm state.symm

end Counting

end RunTriples
