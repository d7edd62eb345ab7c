import CertMate.ThreadPools

/-!
# Ledgers of a pool

An amount that is settled in the state against the sum of what the threads owe
by their notes. Only finitely many threads are there at a time, so there is
always a bound below which they are summed. And what a note may claim for its
thread alone.
-/
namespace ThreadPools
open CallTrees Finset

section
variable {E : Type} {R : E → Type} {σ S α : Type}
variable {M : System E R σ S α} {D : Discipline E R σ S α}

/-- No thread from `n` on. -/
def Config.Below (c : Config E R σ S α) (n : Nat) : Prop := ∀ t, n ≤ t → c.threads t = none

/-- What a thread owes; nothing where there is none. -/
def dues (owes : S → Int) (th : Option (Thread E R S α)) : Int :=
  th.elim 0 fun th => owes th.seen

/-- The sum of what the threads owe. -/
def Config.total (c : Config E R σ S α) (owes : S → Int) (n : Nat) : Int :=
  ∑ t ∈ range n, dues owes (c.threads t)

section Total
variable {c : Config E R σ S α} {n m : Nat}

theorem Config.Below.total (h : c.Below n) (owes : S → Int) (le : n ≤ m) :
    c.total owes m = c.total owes n := by
  symm
  apply sum_subset (range_mono le)
  intro t _ outside
  rw [mem_range, Nat.not_lt] at outside
  rw [h t outside]
  rfl

/-- One thread in place of another, or of none. -/
theorem total_update (owes : S → Int) (w : σ) {t : Nat} (inside : t < n)
    (th : Option (Thread E R S α)) :
    Config.total ⟨Function.update c.threads t th, w⟩ owes n + dues owes (c.threads t) =
      c.total owes n + dues owes th := by
  have member : t ∈ range n := mem_range.mpr inside
  have rest : ∑ u ∈ (range n).erase t, dues owes (Function.update c.threads t th u) =
      ∑ u ∈ (range n).erase t, dues owes (c.threads u) := by
    apply sum_congr rfl
    intro u away
    rw [Function.update_of_ne (ne_of_mem_erase away)]
  have after := add_sum_erase (range n) (fun u => dues owes (Function.update c.threads t th u)) member
  have before := add_sum_erase (range n) (fun u => dues owes (c.threads u)) member
  rw [Function.update_self] at after
  unfold Config.total
  dsimp only
  omega

theorem Config.Below.update (h : c.Below n) (w : σ) (t : Nat) (th : Option (Thread E R S α)) :
    Config.Below ⟨Function.update c.threads t th, w⟩ (max n (t + 1)) := by
  intro u above
  have away : u ≠ t := by omega
  change Function.update c.threads t th u = none
  rw [Function.update_of_ne away]
  exact h u (by omega)

end Total

/-- What is settled in the state, and what a thread still owes by its note. -/
structure Ledger (σ S : Type) where
  settled : σ → Int
  owes : S → Int

/-- The threads owe what the state is short of, `start` apart. -/
def Ledger.Even (L : Ledger σ S) (start : Int) (c : Config E R σ S α) : Prop :=
  ∃ n, c.Below n ∧ L.settled c.world + c.total L.owes n = start

/-- A call settles what its thread owes no longer. A thread that starts or ends
owes nothing. -/
structure Ledger.Kept (L : Ledger σ S) (M : System E R σ S α) (D : Discipline E R σ S α)
    (K : Config E R σ S α → Prop) : Prop where
  call : ∀ c t e k s, K c → c.threads t = some ⟨.call e k, s⟩ → D.call c t e →
    L.settled (M.exec t e c.world).2 + L.owes (M.note s e (M.exec t e c.world).1) =
      L.settled c.world + L.owes s
  start : ∀ th, M.starts th → L.owes th.seen = 0
  spawn : ∀ t e th, M.spawn t e = some th → L.owes th.seen = 0
  finish : ∀ c t a s, K c → c.threads t = some ⟨.ret a, s⟩ → L.owes s = 0
  crash : ∀ c, ¬ D.crash c

section Ledgers
variable {L : Ledger σ S} {K : Config E R σ S α → Prop} {c c' : Config E R σ S α} {start : Int}

/-- A thread that owes nothing comes, or goes. -/
theorem Ledger.Even.set (h : L.Even start c) {t : Nat} {th : Option (Thread E R S α)}
    (before : dues L.owes (c.threads t) = 0) (after : dues L.owes th = 0) :
    L.Even start (c.set t th) := by
  obtain ⟨n, below, even⟩ := h
  refine ⟨max n (t + 1), below.update c.world t th, ?_⟩
  have inside : t < max n (t + 1) := by omega
  have same := total_update (c := c) L.owes c.world inside th
  have wider := below.total L.owes (Nat.le_max_left n (t + 1))
  change L.settled c.world + Config.total ⟨Function.update c.threads t th, c.world⟩ L.owes _ = start
  omega

theorem Ledger.Kept.after (kept : L.Kept M D K) {t : Nat} {e : E} {k : R e → Prog E R α} {s : S}
    (known : K c) (h : L.Even start c) (running : c.threads t = some ⟨.call e k, s⟩)
    (ok : D.call c t e) : L.Even start (M.after c t e k s) := by
  obtain ⟨n, below, even⟩ := h
  have inside : t < n := by
    by_contra outside
    rw [below t (by omega)] at running
    cases running
  refine ⟨n, ?_, ?_⟩
  · have wider := below.update (M.exec t e c.world).2 t
      (some ⟨k (M.exec t e c.world).1, M.note s e (M.exec t e c.world).1⟩)
    rwa [show max n (t + 1) = n by omega] at wider
  · have step := kept.call c t e k s known running ok
    have same := total_update (c := c) L.owes (M.exec t e c.world).2 inside
      (some ⟨k (M.exec t e c.world).1, M.note s e (M.exec t e c.world).1⟩)
    rw [running] at same
    change L.settled (M.exec t e c.world).2 + Config.total ⟨Function.update c.threads t
      (some ⟨k (M.exec t e c.world).1, M.note s e (M.exec t e c.world).1⟩), _⟩ L.owes n = start
    simp only [dues, Option.elim_some] at same
    omega

theorem Ledger.Kept.step (kept : L.Kept M D K) (known : K c) (h : L.Even start c)
    (hs : Step M D c c') : L.Even start c' := by
  cases hs with
  | start free starts ok =>
    apply h.set
    · rw [free]
      rfl
    · exact kept.start _ starts
  | call running enabled alone ok => exact kept.after known h running ok
  | @spawn t u e k s th running enabled child free ok =>
    apply (kept.after known h running ok).set
    · have away : u ≠ t := by
        rintro rfl
        rw [free] at running
        cases running
      have still : (M.after c t e k s).threads u = c.threads u := Function.update_of_ne away _ _
      rw [still, free]
      rfl
    · exact kept.spawn _ _ _ child
  | finish running =>
    apply h.set
    · rw [running]
      exact kept.finish _ _ _ _ known running
    · rfl
  | crash ok => exact absurd ok (kept.crash _)

/-- When all is quiet, nothing is owed. -/
theorem Ledger.Kept.settled_of_quiet (kept : L.Kept M D K) (known : K c) (h : L.Even start c)
    (quiet : c.Quiet) : L.settled c.world = start := by
  obtain ⟨n, -, even⟩ := h
  have none : c.total L.owes n = 0 := by
    apply sum_eq_zero
    intro t _
    cases there : c.threads t with
    | none => rfl
    | some th =>
      obtain ⟨a, ended⟩ := quiet t th there
      obtain ⟨prog, s⟩ := th
      subst ended
      exact kept.finish c t a s known there
  omega

/-- As long as nobody is owed anything, the state is not ahead. -/
theorem Ledger.Even.settled_le (h : L.Even start c) (sign : ∀ s, 0 ≤ L.owes s) :
    L.settled c.world ≤ start := by
  obtain ⟨n, -, even⟩ := h
  have positive : 0 ≤ c.total L.owes n := by
    apply sum_nonneg
    intro t _
    cases c.threads t with
    | none => exact Int.le_refl 0
    | some th => exact sign th.seen
  omega

end Ledgers

/-- No two threads have the same thing by their notes. -/
def Exclusive {ι : Type} (has : S → ι → Prop) (c : Config E R σ S α) : Prop :=
  ∀ t u th th' i, c.threads t = some th → c.threads u = some th' → has th.seen i →
    has th'.seen i → t = u

/-- A call gets its thread only what no thread has; a new thread has nothing. -/
structure Exclusive.Kept {ι : Type} (has : S → ι → Prop) (M : System E R σ S α)
    (D : Discipline E R σ S α) (K : Config E R σ S α → Prop) : Prop where
  call : ∀ c t e k s i, K c → c.threads t = some ⟨.call e k, s⟩ → D.call c t e →
    has (M.note s e (M.exec t e c.world).1) i →
    has s i ∨ ∀ u th, c.threads u = some th → ¬ has th.seen i
  start : ∀ th i, M.starts th → ¬ has th.seen i
  spawn : ∀ t e th i, M.spawn t e = some th → ¬ has th.seen i

section Exclusion
variable {ι : Type} {has : S → ι → Prop} {K : Config E R σ S α → Prop} {c c' : Config E R σ S α}

theorem Exclusive.set (h : Exclusive has c) (t : Nat) {th : Option (Thread E R S α)}
    (new : ∀ th', th = some th' → ∀ i, has th'.seen i → ∀ u th'', u ≠ t →
      c.threads u = some th'' → ¬ has th''.seen i) : Exclusive has (c.set t th) := by
  have apart : ∀ u th₁ th₂ i, u ≠ t → (c.set t th).threads t = some th₁ →
      (c.set t th).threads u = some th₂ → has th₁.seen i → ¬ has th₂.seen i := by
    intro u th₁ th₂ i away here there mine
    rw [Config.set_self] at here
    rw [Config.set_other _ _ away] at there
    exact new th₁ here i mine u th₂ away there
  intro u v th₁ th₂ i hu hv mine yours
  by_cases here : u = t
  · by_cases there : v = t
    · rw [here, there]
    · subst here
      exact absurd yours (apart v th₁ th₂ i there hu hv mine)
  · by_cases there : v = t
    · subst there
      exact absurd mine (apart u th₂ th₁ i here hv hu yours)
    · rw [Config.set_other _ _ here] at hu
      rw [Config.set_other _ _ there] at hv
      exact h u v th₁ th₂ i hu hv mine yours

theorem Exclusive.Kept.step (kept : Exclusive.Kept has M D K) (known : K c) (h : Exclusive has c)
    (hs : Step M D c c') : Exclusive has c' := by
  have after : ∀ {t e k s}, c.threads t = some ⟨.call e k, s⟩ → D.call c t e →
      Exclusive has (M.after c t e k s) := by
    intro t e k s running ok
    apply Exclusive.set h t
    rintro th' ⟨⟩ i got u th'' away there
    rcases kept.call c t e k s i known running ok got with mine | free
    · exact fun yours => away (h u t th'' _ i there running yours mine)
    · exact free u th'' there
  cases hs with
  | start free starts ok =>
    apply h.set
    rintro th' ⟨⟩ i got
    exact absurd got (kept.start _ i starts)
  | call running enabled alone ok => exact after running ok
  | spawn running enabled child free ok =>
    apply (after running ok).set
    rintro th' ⟨⟩ i got
    exact absurd got (kept.spawn _ _ _ i child)
  | finish running =>
    apply h.set
    rintro th' ⟨⟩
  | crash ok =>
    intro t u th th' i there
    cases there

end Exclusion
end

end ThreadPools
