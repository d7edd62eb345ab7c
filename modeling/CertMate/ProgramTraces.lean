import CertMate.CallTrees

/-!
# Programs replayed on recorded answers

A program that has been given answers to its calls is the rest of itself. It does
not matter where the answers come from, nor what else was done between them.
-/
namespace ProgramTraces
open CallTrees

variable {E : Type} {R : E → Type} {α : Type} [DecidableEq E]

/-- What the program returns when its calls get these answers in order. There may
be answers left over. -/
def replay : Prog E R α → List (Σ e, R e) → Option α
  | .ret a, _ => some a
  | .call _ _, [] => none
  | .call e k, ⟨e', r⟩ :: told => if same : e' = e then replay (k (same ▸ r)) told else none

@[simp] theorem replay_ret (a : α) (told : List (Σ e, R e)) :
    replay (.ret a : Prog E R α) told = some a := by
  cases told <;> rfl

@[simp] theorem replay_call (e : E) (k : R e → Prog E R α) (r : R e) (told : List (Σ e, R e)) :
    replay (.call e k) (⟨e, r⟩ :: told) = replay (k r) told := by
  simp [replay]

/-- More answers than a program asks for change nothing. -/
theorem replay_append {p : Prog E R α} {told : List (Σ e, R e)} {a : α}
    (h : replay p told = some a) (more : List (Σ e, R e)) : replay p (told ++ more) = some a := by
  induction p generalizing told with
  | ret b =>
    rw [replay_ret] at h ⊢
    exact h
  | call e k ih =>
    cases told with
    | nil => cases h
    | cons first told =>
      obtain ⟨e', r⟩ := first
      by_cases same : e' = e
      · subst same
        rw [List.cons_append, replay_call]
        rw [replay_call] at h
        exact ih r h
      · rw [replay, dif_neg same] at h
        cases h

/-- `Fed p told q`: the program `p`, given these answers, goes on as `q`. -/
def Fed (p : Prog E R α) (told : List (Σ e, R e)) (q : Prog E R α) : Prop :=
  ∀ more, replay p (told ++ more) = replay q more

theorem Fed.start (p : Prog E R α) : Fed p [] p := fun _ => rfl

/-- One more answer. -/
theorem Fed.answer {p : Prog E R α} {told : List (Σ e, R e)} {e : E} {k : R e → Prog E R α}
    (h : Fed p told (.call e k)) (r : R e) : Fed p (told ++ [⟨e, r⟩]) (k r) := by
  intro more
  rw [List.append_assoc, List.singleton_append, h, replay_call]

/-- At the end the answers decide the result. -/
theorem Fed.result {p : Prog E R α} {told : List (Σ e, R e)} {a : α} (h : Fed p told (.ret a)) :
    replay p told = some a := by
  have ended := h []
  rwa [List.append_nil, replay_ret] at ended

end ProgramTraces
