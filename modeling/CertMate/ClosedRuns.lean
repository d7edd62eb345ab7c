import CertMate.ThreadNotes

/-!
# Runs that nothing is added to

Every program is a tree in which each call leads further down, so a run without
new threads from outside comes to an end, whatever is answered and in whatever
order the threads take turns: a call replaces a thread by a smaller one, and the
threads it starts are of a lower tier. The order on configurations is the
multiset order over tiers and trees.
-/
namespace ThreadPools
open CallTrees Finset

section
variable {E : Type} {R : E → Type} {σ S α : Type}

/-- No threads from outside, and no kill. -/
def Discipline.closed : Discipline E R σ S α where
  start _ _ := False
  call _ _ _ := True
  crash _ := False

/-- A closed run is one of every discipline that admits all calls. -/
theorem closed_step {M : System E R σ S α} {D : Discipline E R σ S α} {c c' : Config E R σ S α}
    (calls : ∀ c t e, D.call c t e) (hs : Step M .closed c c') : Step M D c c' := by
  cases hs with
  | start free starts ok => exact ok.elim
  | call running enabled alone ok => exact .call running enabled alone (calls _ _ _)
  | spawn running enabled child free ok => exact .spawn running enabled child free (calls _ _ _)
  | finish running => exact .finish running
  | crash ok => exact ok.elim

/-- What is left of a program after its next call. -/
def Rest (p q : Prog E R α) : Prop := ∃ e k r, q = .call e k ∧ p = k r

theorem rest_acc (p : Prog E R α) : Acc Rest p := by
  induction p with
  | ret a =>
    constructor
    rintro q ⟨e, k, r, none, -⟩
    cases none
  | call e k ih =>
    constructor
    rintro q ⟨e', k', r, same, rfl⟩
    cases same
    exact ih r

/-- The height of a program. -/
noncomputable def height (p : Prog E R α) : Ordinal.{0} := (rest_acc p).rank

theorem height_lt {e : E} {k : R e → Prog E R α} (r : R e) :
    height (k r) < height (.call e k) := (rest_acc (.call e k)).rank_lt_of_rel ⟨e, k, r, rfl, rfl⟩

/-- First by tier, then by height. -/
abbrev Weight := Nat ×ₗ Ordinal.{0}

noncomputable def weight (tier : S → Nat) (th : Thread E R S α) : Weight :=
  toLex (tier th.seen, height th.prog)

noncomputable def weightAt (tier : S → Nat) (th : Option (Thread E R S α)) : Multiset Weight :=
  th.elim 0 fun th => {weight tier th}

/-- The threads below `n` by their weights. -/
noncomputable def Config.weights (tier : S → Nat) (c : Config E R σ S α) (n : Nat) :
    Multiset Weight := ∑ t ∈ range n, weightAt tier (c.threads t)

section Weights
variable {tier : S → Nat} {c : Config E R σ S α} {n m : Nat}

theorem weights_mono (below : c.Below n) (le : n ≤ m) :
    c.weights tier m = c.weights tier n := by
  symm
  apply sum_subset (range_mono le)
  intro t _ outside
  rw [mem_range, Nat.not_lt] at outside
  rw [below t outside]
  rfl

variable (tier c) in
/-- What one thread contributes, and the rest. -/
theorem weights_update (w : σ) {t : Nat} (inside : t < n) (th : Option (Thread E R S α)) :
    ∃ rest, c.weights tier n = rest + weightAt tier (c.threads t) ∧
      Config.weights tier ⟨Function.update c.threads t th, w⟩ n = rest + weightAt tier th := by
  have member : t ∈ range n := mem_range.mpr inside
  refine ⟨∑ u ∈ (range n).erase t, weightAt tier (c.threads u), ?_, ?_⟩
  · exact (sum_erase_add (range n) (fun u => weightAt tier (c.threads u)) member).symm
  · have others : ∑ u ∈ (range n).erase t, weightAt tier (Function.update c.threads t th u) =
        ∑ u ∈ (range n).erase t, weightAt tier (c.threads u) := by
      apply sum_congr rfl
      intro u away
      rw [Function.update_of_ne (ne_of_mem_erase away)]
    have all := sum_erase_add (range n)
      (fun u => weightAt tier (Function.update c.threads t th u)) member
    rw [others, Function.update_self] at all
    exact all.symm

/-- The weight of the threads, as far as there are any. -/
def Weighs (tier : S → Nat) (c : Config E R σ S α) (weights : Multiset Weight) : Prop :=
  ∃ n, c.Below n ∧ weights = c.weights tier n

variable (tier) in
theorem weighs_of_finite (h : c.Finite) : ∃ weights, Weighs tier c weights := by
  obtain ⟨n, below⟩ := h
  exact ⟨_, n, below, rfl⟩

/-- A thread and those that take its place. -/
theorem Weighs.replace {weights : Multiset Weight} (h : Weighs tier c weights) (w : σ) {t : Nat}
    {old : Thread E R S α} (there : c.threads t = some old) (th : Option (Thread E R S α)) :
    ∃ rest, weights = rest + {weight tier old} ∧
      Weighs tier ⟨Function.update c.threads t th, w⟩ (rest + weightAt tier th) := by
  obtain ⟨n, below, rfl⟩ := h
  have inside : t < n := by
    by_contra outside
    rw [below t (by omega)] at there
    cases there
  obtain ⟨rest, before, after⟩ := weights_update tier c w inside th
  rw [there] at before
  refine ⟨rest, before, n, ?_, after.symm⟩
  have wider := below.update w t th
  rwa [show max n (t + 1) = n by omega] at wider

theorem Weighs.add {weights : Multiset Weight} (h : Weighs tier c weights) {u : Nat}
    (free : c.threads u = none) (th : Thread E R S α) :
    Weighs tier (c.set u (some th)) (weights + {weight tier th}) := by
  obtain ⟨n, below, rfl⟩ := h
  have inside : u < max n (u + 1) := by omega
  obtain ⟨rest, before, after⟩ := weights_update tier c c.world inside (some th)
  rw [free, weights_mono below (Nat.le_max_left n (u + 1))] at before
  have plain : c.weights tier n = rest := by simpa [weightAt] using before
  refine ⟨max n (u + 1), below.update c.world u (some th), ?_⟩
  rw [plain]
  exact after.symm

end Weights

/-- A call never raises the tier, and a thread is started by one of a higher tier. -/
structure Tiered (M : System E R σ S α) (K : Config E R σ S α → Prop) (tier : S → Nat) :
    Prop where
  call : ∀ c t e k s, K c → c.threads t = some ⟨.call e k, s⟩ →
    tier (M.note s e (M.exec t e c.world).1) ≤ tier s
  spawn : ∀ c t e k s th, K c → c.threads t = some ⟨.call e k, s⟩ → M.spawn t e = some th →
    tier th.seen < tier s

section Ends
variable {M : System E R σ S α} {K : Config E R σ S α → Prop} {tier : S → Nat}
  {c c' : Config E R σ S α}

theorem Tiered.lighter (tiered : Tiered M K tier) (known : K c) {t : Nat} {e : E}
    {k : R e → Prog E R α} {s : S} (running : c.threads t = some ⟨.call e k, s⟩) :
    weight tier (⟨k (M.exec t e c.world).1, M.note s e (M.exec t e c.world).1⟩ : Thread E R S α) <
      weight tier ⟨.call e k, s⟩ := by
  have lower := tiered.call c t e k s known running
  unfold weight
  rw [Prod.Lex.toLex_lt_toLex]
  rcases Nat.lt_or_eq_of_le lower with less | same
  · exact Or.inl less
  · exact Or.inr ⟨same, height_lt _⟩

/-- Every step takes weight away. -/
theorem Tiered.step (tiered : Tiered M K tier) (known : K c) {weights : Multiset Weight}
    (h : Weighs tier c weights) (hs : Step M .closed c c') :
    ∃ weights', Weighs tier c' weights' ∧ weights'.IsDershowitzMannaLT weights := by
  cases hs with
  | start free starts ok => exact ok.elim
  | @call t e k s running enabled alone ok =>
    obtain ⟨rest, rfl, after⟩ := h.replace (M.exec t e c.world).2 running
      (some ⟨k (M.exec t e c.world).1, M.note s e (M.exec t e c.world).1⟩)
    refine ⟨_, after, rest, _, _, Multiset.singleton_ne_zero _, rfl, rfl, ?_⟩
    intro y member
    rw [Multiset.mem_singleton.mp member]
    exact ⟨_, Multiset.mem_singleton_self _, tiered.lighter known running⟩
  | @spawn t u e k s th running enabled child free ok =>
    obtain ⟨rest, rfl, after⟩ := h.replace (M.exec t e c.world).2 running
      (some ⟨k (M.exec t e c.world).1, M.note s e (M.exec t e c.world).1⟩)
    have away : u ≠ t := by
      rintro rfl
      rw [free] at running
      cases running
    have still : (M.after c t e k s).threads u = none :=
      (Function.update_of_ne away _ _).trans free
    refine ⟨_, after.add still th, rest, _, _, Multiset.singleton_ne_zero _,
      add_assoc _ _ _, rfl, ?_⟩
    intro y member
    refine ⟨_, Multiset.mem_singleton_self _, ?_⟩
    rcases Multiset.mem_add.mp member with own | new
    · rw [Multiset.mem_singleton.mp own]
      exact tiered.lighter known running
    · rw [Multiset.mem_singleton.mp new]
      unfold weight
      rw [Prod.Lex.toLex_lt_toLex]
      exact Or.inl (tiered.spawn c t e k s th known running child)
  | @finish t a s running =>
    obtain ⟨rest, rfl, after⟩ := h.replace c.world running none
    refine ⟨_, after, rest, 0, _, Multiset.singleton_ne_zero _, rfl, rfl, ?_⟩
    intro y member
    exact absurd member (Multiset.notMem_zero y)
  | crash ok => exact ok.elim

/-- There is no endless run. -/
theorem Tiered.acc (tiered : Tiered M K tier) (keeps : ∀ c c', K c → Step M .closed c c' → K c')
    (known : K c) (finite : c.Finite) : Acc (fun c' c => Step M .closed c c') c := by
  obtain ⟨weights, h⟩ := weighs_of_finite tier finite
  have order := Multiset.wellFounded_isDershowitzMannaLT (α := Weight)
  induction order.apply weights generalizing c with
  | intro weights _ ih =>
    constructor
    intro c' hs
    obtain ⟨weights', after, less⟩ := tiered.step known h hs
    exact ih weights' less (keeps c c' known hs) (hs.finite _ _ finite) after

end Ends

/-- The next step of the thread can be taken. -/
def Able (M : System E R σ S α) (c : Config E R σ S α) (t : Nat) : Prop :=
  ∃ th, c.threads t = some th ∧ match th.prog with
    | .ret _ => True
    | .call e _ => M.enabled t e c.world = true

theorem Able.step {M : System E R σ S α} {c : Config E R σ S α} {t : Nat} (h : Able M c t)
    (finite : c.Finite) : ∃ c', Step M .closed c c' := by
  obtain ⟨⟨prog, s⟩, there, able⟩ := h
  cases prog with
  | ret a => exact ⟨_, .finish there⟩
  | call e k =>
    cases born : M.spawn t e with
    | none => exact ⟨_, .call there able born trivial⟩
    | some th =>
      obtain ⟨u, -, free⟩ := finite.room t
      exact ⟨_, .spawn there able born free trivial⟩

end

end ThreadPools
