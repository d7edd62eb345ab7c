import CertMate.ThreadLedgers

/-!
# A second note

Every run of a pool is a run of the same pool whose threads carry one more note
each. What a single proof has to know of its threads can so be noted without a
change to the pool. And a ledger whose debts a thread may hand to the thread it
starts.
-/
namespace ThreadPools
open CallTrees Finset

section
variable {E : Type} {R : E → Type} {σ S T α : Type}

/-- The thread with its second note, which begins as `first`. -/
def Thread.beside (first : Thread E R S α → T) (th : Thread E R S α) : Thread E R (S × T) α :=
  ⟨th.prog, th.seen, first th⟩

def Thread.plain (th : Thread E R (S × T) α) : Thread E R S α := ⟨th.prog, th.seen.1⟩

@[simp] theorem Thread.plain_beside (first : Thread E R S α → T) (th : Thread E R S α) :
    (th.beside first).plain = th := rfl

/-- The configuration without the second notes. -/
def Config.plain (c : Config E R σ (S × T) α) : Config E R σ S α :=
  ⟨fun t => (c.threads t).map Thread.plain, c.world⟩

@[simp] theorem plain_world (c : Config E R σ (S × T) α) : c.plain.world = c.world := rfl

@[simp] theorem plain_threads (c : Config E R σ (S × T) α) (t : Nat) :
    c.plain.threads t = (c.threads t).map Thread.plain := rfl

theorem plain_none {c : Config E R σ (S × T) α} {t : Nat} (h : c.plain.threads t = none) :
    c.threads t = none := by simpa using h

theorem plain_some {c : Config E R σ (S × T) α} {t : Nat} {th : Thread E R S α}
    (h : c.plain.threads t = some th) : ∃ x, c.threads t = some ⟨th.prog, th.seen, x⟩ := by
  rw [plain_threads, Option.map_eq_some_iff] at h
  obtain ⟨⟨prog, seen, x⟩, there, rfl⟩ := h
  exact ⟨x, there⟩

theorem plain_set (c : Config E R σ (S × T) α) (t : Nat) (th : Option (Thread E R (S × T) α)) :
    (c.set t th).plain = c.plain.set t (th.map Thread.plain) := by
  have threads : (c.set t th).plain.threads = (c.plain.set t (th.map Thread.plain)).threads := by
    funext u
    by_cases same : u = t
    · subst same
      simp
    · simp [Config.set_other _ _ same]
  exact congrArg (fun threads => Config.mk threads c.world) threads

variable (M : System E R σ S α) (D : Discipline E R σ S α) (first : Thread E R S α → T)
  (jot : T → (e : E) → R e → T)

def System.noting : System E R σ (S × T) α where
  exec := M.exec
  enabled := M.enabled
  note s e r := (M.note s.1 e r, jot s.2 e r)
  spawn t e := (M.spawn t e).map (Thread.beside first)
  starts th := ∃ own, M.starts own ∧ th = own.beside first
  restart := M.restart

/-- The discipline does not look at the second notes. -/
def Discipline.noting : Discipline E R σ (S × T) α where
  start c th := D.start c.plain th.plain
  call c t e := D.call c.plain t e
  crash c := D.crash c.plain

theorem plain_after (c : Config E R σ (S × T) α) (t : Nat) (e : E) (k : R e → Prog E R α) (s : S)
    (x : T) : ((M.noting first jot).after c t e k (s, x)).plain = M.after c.plain t e k s := by
  have threads : ((M.noting first jot).after c t e k (s, x)).plain.threads =
      (M.after c.plain t e k s).threads := by
    funext u
    by_cases same : u = t
    · subst same
      simp [System.after, System.noting, Thread.plain]
    · simp [System.after, same]
  exact congrArg (fun threads => Config.mk threads (M.exec t e c.world).2) threads

variable {M D first jot}

theorem Step.noting {c : Config E R σ (S × T) α} {c' : Config E R σ S α}
    (h : Step M D c.plain c') :
    ∃ d, Step (M.noting first jot) D.noting c d ∧ d.plain = c' := by
  cases h with
  | @start t th free starts ok =>
    refine ⟨_, .start (plain_none free) ⟨th, starts, rfl⟩ ok, ?_⟩
    rw [plain_set]
    rfl
  | @call t e k s running enabled alone ok =>
    obtain ⟨x, running⟩ := plain_some running
    refine ⟨_, .call running enabled ?_ ok, plain_after M first jot c t e k s x⟩
    simpa [System.noting] using alone
  | @spawn t u e k s th running enabled child free ok =>
    obtain ⟨x, running⟩ := plain_some running
    have born : (M.noting first jot).spawn t e = some (th.beside first) := by
      simp [System.noting, child]
    refine ⟨_, .spawn running enabled born (plain_none free) ok, ?_⟩
    rw [plain_set, plain_after]
    rfl
  | @finish t a s running =>
    obtain ⟨x, running⟩ := plain_some running
    refine ⟨_, .finish running, ?_⟩
    rw [plain_set]
    rfl
  | crash ok => exact ⟨_, .crash ok, rfl⟩

variable (first jot) in
/-- Every run is one with a second note. -/
theorem Reach.noting {c : Config E R σ (S × T) α} {c' : Config E R σ S α}
    (h : Reach M D c.plain c') :
    ∃ d, Reach (M.noting first jot) D.noting c d ∧ d.plain = c' := by
  induction h with
  | refl => exact ⟨c, .refl, rfl⟩
  | tail _ hs ih =>
    obtain ⟨d, run, rfl⟩ := ih
    obtain ⟨d', step, same⟩ := Step.noting hs
    exact ⟨d', .tail run step, same⟩

/-- Where the runs with notes end, those without do. -/
theorem acc_plain {d : Config E R σ (S × T) α}
    (h : Acc (fun d' d => Step (M.noting first jot) D.noting d d') d) :
    Acc (fun c' c => Step M D c c') d.plain := by
  induction h with
  | intro d _ ih =>
    constructor
    intro c' hs
    obtain ⟨d', step, rfl⟩ := Step.noting hs
    exact ih d' step

/-- A configuration without threads has no notes. -/
theorem exists_plain {c : Config E R σ S α} (empty : ∀ t, c.threads t = none) :
    ∃ d : Config E R σ (S × T) α, d.plain = c ∧ ∀ t, d.threads t = none := by
  refine ⟨⟨fun _ => none, c.world⟩, ?_, fun _ => rfl⟩
  have threads : c.threads = fun _ => none := funext empty
  exact congrArg (fun threads => Config.mk threads c.world) threads.symm

variable {A : (e : E) → R e → Prop} {allows : T → E → Prop} {Q : α → T → Prop}

/-- What keeps to a protocol by the second note alone. -/
theorem follows_beside {p : Prog E R α} {x : T} (h : Follows A allows jot p x Q) (s : S) :
    Follows A (fun y : S × T => allows y.2) (M.noting first jot).note p (s, x) fun a y => Q a y.2 := by
  induction p generalizing s x with
  | ret a => exact h
  | call e k ih => exact ⟨h.1, fun r told => ih r (h.2 r told) _⟩

/-- Calls that a note allows and that leave it as it is. -/
theorem Silent.follows_from {β : Type} {C : E → Prop} {p : Prog E R β} {Q : β → Prop}
    (h : Silent A C p Q) {x : T} (allowed : ∀ e, C e → allows x e)
    (unnoted : ∀ e r, C e → jot x e r = x) :
    Follows A allows jot p x fun b y => y = x ∧ Q b := by
  induction p with
  | ret b => exact ⟨rfl, h⟩
  | call e k ih =>
    refine ⟨allowed e h.1, fun r told => ?_⟩
    rw [unnoted e r h.1]
    exact ih r (h.2 r told)

end

section
variable {E : Type} {R : E → Type} {σ S α : Type}
variable {M : System E R σ S α} {D : Discipline E R σ S α} {L : Ledger σ S} {start start' : Int}
  {c c' : Config E R σ S α}

/-- One thread in place of another, or of none, and another state. -/
theorem Ledger.Even.update (h : L.Even start c) (w : σ) (t : Nat) (th : Option (Thread E R S α))
    (balance : L.settled w + dues L.owes th + start =
      L.settled c.world + dues L.owes (c.threads t) + start') :
    L.Even start' ⟨Function.update c.threads t th, w⟩ := by
  obtain ⟨n, below, even⟩ := h
  refine ⟨max n (t + 1), below.update w t th, ?_⟩
  have inside : t < max n (t + 1) := by omega
  have same := total_update (c := c) L.owes w inside th
  have wider := below.total L.owes (Nat.le_max_left n (t + 1))
  change L.settled w + Config.total ⟨Function.update c.threads t th, w⟩ L.owes _ = start'
  omega

/-- Of threads that owe nothing the state is right. -/
theorem Ledger.Even.settled_eq (h : L.Even start c)
    (free : ∀ t th, c.threads t = some th → L.owes th.seen = 0) : L.settled c.world = start := by
  obtain ⟨n, -, even⟩ := h
  have none : c.total L.owes n = 0 := by
    apply sum_eq_zero
    intro t _
    cases there : c.threads t with
    | none => rfl
    | some th => exact free t th there
  omega

/-- Somebody owes what the state is short of. -/
theorem Ledger.Even.debtor (h : L.Even start c) (short : L.settled c.world ≠ start) :
    ∃ t th, c.threads t = some th ∧ L.owes th.seen ≠ 0 := by
  by_contra nobody
  apply short
  apply h.settled_eq
  intro t th there
  by_contra owes
  exact nobody ⟨t, th, there, owes⟩

/-- The debtors are no more than what the state is short of. -/
theorem Ledger.Even.card_le (h : L.Even start c) (sign : ∀ s, 0 ≤ L.owes s) (debtors : Finset Nat)
    (owe : ∀ t ∈ debtors, ∃ th, c.threads t = some th ∧ 1 ≤ L.owes th.seen) :
    L.settled c.world + debtors.card ≤ start := by
  obtain ⟨n, below, even⟩ := h
  have part : debtors ⊆ range n := by
    intro t member
    obtain ⟨th, there, -⟩ := owe t member
    rw [mem_range]
    by_contra outside
    rw [below t (by omega)] at there
    cases there
  have each : ∀ t ∈ debtors, (1 : Int) ≤ dues L.owes (c.threads t) := by
    intro t member
    obtain ⟨th, there, one⟩ := owe t member
    rw [there]
    exact one
  have rest : ∀ t ∈ range n, t ∉ debtors → 0 ≤ dues L.owes (c.threads t) := by
    intro t _ _
    cases c.threads t with
    | none => exact Int.le_refl 0
    | some th => exact sign th.seen
  have fewer : ∑ t ∈ debtors, dues L.owes (c.threads t) ≤ c.total L.owes n :=
    sum_le_sum_of_subset_of_nonneg part rest
  have count := card_nsmul_le_sum debtors _ 1 each
  rw [nsmul_eq_mul, mul_one] at count
  omega

theorem Ledger.Even.owed_le (h : L.Even start c) (sign : ∀ s, 0 ≤ L.owes s) {t : Nat}
    {th : Thread E R S α} (there : c.threads t = some th) (one : 1 ≤ L.owes th.seen) :
    L.settled c.world + 1 ≤ start := by
  have member : ∀ u ∈ ({t} : Finset Nat), ∃ th, c.threads u = some th ∧ 1 ≤ L.owes th.seen := by
    intro u same
    rw [mem_singleton] at same
    exact ⟨th, same ▸ there, one⟩
  simpa using h.card_le sign {t} member

/-- A call settles what its thread owes no longer, but for what the thread it
starts takes over. -/
structure Ledger.Handed (L : Ledger σ S) (M : System E R σ S α) (D : Discipline E R σ S α)
    (K : Config E R σ S α → Prop) (start : Int) : Prop where
  call : ∀ c t e k s, K c → c.threads t = some ⟨.call e k, s⟩ → M.spawn t e = none →
    L.settled (M.exec t e c.world).2 + L.owes (M.note s e (M.exec t e c.world).1) =
      L.settled c.world + L.owes s
  spawn : ∀ c t e k s th, K c → c.threads t = some ⟨.call e k, s⟩ → M.spawn t e = some th →
    L.settled (M.exec t e c.world).2 + L.owes (M.note s e (M.exec t e c.world).1) +
      L.owes th.seen = L.settled c.world + L.owes s
  starts : ∀ th, M.starts th → L.owes th.seen = 0
  finish : ∀ c t a s, K c → c.threads t = some ⟨.ret a, s⟩ → L.owes s = 0
  restart : ∀ w, L.settled (M.restart w) = start

theorem Ledger.Handed.step {K : Config E R σ S α → Prop} (handed : L.Handed M D K start)
    (known : K c) (h : L.Even start c) (hs : Step M D c c') : L.Even start c' := by
  cases hs with
  | @start t th free starts ok =>
    apply h.update
    have none := handed.starts th starts
    simp [free, dues, none]
  | @call t e k s running enabled alone ok =>
    apply h.update
    have balance := handed.call c t e k s known running alone
    simp only [running, dues, Option.elim_some]
    omega
  | @spawn t u e k s th running enabled child free ok =>
    have balance := handed.spawn c t e k s th known running child
    have away : u ≠ t := by
      rintro rfl
      rw [free] at running
      cases running
    have short : L.Even (start - L.owes th.seen) (M.after c t e k s) := by
      apply h.update
      simp only [running, dues, Option.elim_some]
      omega
    apply short.update
    have still : (M.after c t e k s).threads u = none :=
      (Function.update_of_ne away _ _).trans free
    simp only [still, dues, Option.elim_some, Option.elim_none]
    omega
  | @finish t a s running =>
    apply h.update
    have none := handed.finish c t a s known running
    simp [running, dues, none]
  | crash ok =>
    refine ⟨0, fun _ _ => rfl, ?_⟩
    have fresh := handed.restart c.world
    simpa [Config.total] using fresh

end

end ThreadPools
