import CertMate.CallTrees

/-!
# Interleaved programs over one shared state

Threads take turns, one call at a time. Every thread carries a note of what it
has been answered so far, which its own calls alone decide, so a protocol the
programs follow is checked thread by thread and used for all interleavings. The
process may be killed between any two calls.
-/
namespace ThreadPools
open CallTrees

structure Thread (E : Type) (R : E → Type) (S α : Type) where
  prog : Prog E R α
  seen : S

structure Config (E : Type) (R : E → Type) (σ S α : Type) where
  threads : Nat → Option (Thread E R S α)
  world : σ

/-- `restart` is what the next start of the process makes of the state a kill
has left. -/
structure System (E : Type) (R : E → Type) (σ S α : Type) where
  exec : Nat → (e : E) → σ → R e × σ
  enabled : Nat → E → σ → Bool
  note : S → (e : E) → R e → S
  spawn : Nat → E → Option (Thread E R S α)
  starts : Thread E R S α → Prop
  restart : σ → σ

/-- The steps a run is allowed to take. -/
structure Discipline (E : Type) (R : E → Type) (σ S α : Type) where
  start : Config E R σ S α → Thread E R S α → Prop
  call : Config E R σ S α → Nat → E → Prop
  crash : Config E R σ S α → Prop

section
variable {E : Type} {R : E → Type} {σ S α : Type}

/-- Every interleaving, and a kill at any point. -/
def Discipline.any : Discipline E R σ S α where
  start _ _ := True
  call _ _ _ := True
  crash _ := True

/-- Every interleaving of a process that is not killed. -/
def Discipline.uninterrupted : Discipline E R σ S α where
  start _ _ := True
  call _ _ _ := True
  crash _ := False

def Config.set (c : Config E R σ S α) (t : Nat) (th : Option (Thread E R S α)) :
    Config E R σ S α :=
  { c with threads := Function.update c.threads t th }

@[simp] theorem Config.set_world (c : Config E R σ S α) (t : Nat)
    (th : Option (Thread E R S α)) : (c.set t th).world = c.world := rfl

@[simp] theorem Config.set_self (c : Config E R σ S α) (t : Nat)
    (th : Option (Thread E R S α)) : (c.set t th).threads t = th := by
  simp [Config.set]

theorem Config.set_other (c : Config E R σ S α) {t u : Nat}
    (th : Option (Thread E R S α)) (h : u ≠ t) :
    (c.set t th).threads u = c.threads u := by
  simp [Config.set, h]

variable (M : System E R σ S α) (D : Discipline E R σ S α)

/-- The configuration after thread `t` has made the call `e`. -/
def System.after (c : Config E R σ S α) (t : Nat) (e : E)
    (k : R e → Prog E R α) (s : S) : Config E R σ S α where
  threads := Function.update c.threads t
    (some ⟨k (M.exec t e c.world).1, M.note s e (M.exec t e c.world).1⟩)
  world := (M.exec t e c.world).2

theorem after_self (c : Config E R σ S α) (t : Nat) (e : E) (k : R e → Prog E R α) (s : S) :
    (M.after c t e k s).threads t =
      some ⟨k (M.exec t e c.world).1, M.note s e (M.exec t e c.world).1⟩ :=
  Function.update_self _ _ _

inductive Step : Config E R σ S α → Config E R σ S α → Prop
  | start {c : Config E R σ S α} {t : Nat} {th : Thread E R S α}
      (free : c.threads t = none) (starts : M.starts th) (ok : D.start c th) :
      Step c (c.set t (some th))
  | call {c : Config E R σ S α} {t : Nat} {e : E} {k : R e → Prog E R α} {s : S}
      (running : c.threads t = some ⟨.call e k, s⟩) (enabled : M.enabled t e c.world = true)
      (alone : M.spawn t e = none) (ok : D.call c t e) :
      Step c (M.after c t e k s)
  | spawn {c : Config E R σ S α} {t u : Nat} {e : E} {k : R e → Prog E R α} {s : S}
      {th : Thread E R S α}
      (running : c.threads t = some ⟨.call e k, s⟩) (enabled : M.enabled t e c.world = true)
      (child : M.spawn t e = some th) (free : c.threads u = none) (ok : D.call c t e) :
      Step c ((M.after c t e k s).set u (some th))
  | finish {c : Config E R σ S α} {t : Nat} {a : α} {s : S}
      (running : c.threads t = some ⟨.ret a, s⟩) :
      Step c (c.set t none)
  | crash {c : Config E R σ S α} (ok : D.crash c) :
      Step c ⟨fun _ => none, M.restart c.world⟩

def Reach : Config E R σ S α → Config E R σ S α → Prop :=
  Relation.ReflTransGen (Step M D)

theorem Reach.invariant {I : Config E R σ S α → Prop}
    (step : ∀ c c', I c → Step M D c c' → I c') {c c' : Config E R σ S α}
    (h : Reach M D c c') (hc : I c) : I c' := by
  induction h with
  | refl => exact hc
  | tail _ hs ih => exact step _ _ ih hs

/-- A run is one of steps that lie between its two ends. -/
theorem Reach.between {c c' : Config E R σ S α} (h : Reach M D c c') :
    Relation.ReflTransGen (fun b b' => Step M D b b' ∧ Reach M D c b ∧ Reach M D b' c') c c' := by
  induction h with
  | refl => exact .refl
  | tail run hs ih =>
    refine .tail (ih.lift id ?_) ⟨hs, run, .refl⟩
    rintro b b' ⟨step, before, after⟩
    exact ⟨step, before, .tail after hs⟩

/-- Beyond some number there are no threads. -/
def Config.Finite (c : Config E R σ S α) : Prop := ∃ n, ∀ t, n ≤ t → c.threads t = none

theorem Config.Finite.set {c : Config E R σ S α} (h : c.Finite) (t : Nat)
    (th : Option (Thread E R S α)) : (c.set t th).Finite := by
  obtain ⟨n, none⟩ := h
  refine ⟨max n (t + 1), fun u hu => ?_⟩
  have away : u ≠ t := by omega
  exact (Config.set_other c th away).trans (none u (by omega))

theorem Step.finite {c c' : Config E R σ S α} (hs : Step M D c c') (h : c.Finite) : c'.Finite := by
  cases hs with
  | start free starts ok => exact h.set _ _
  | @call t e k s running enabled alone ok => exact h.set t (some ⟨_, _⟩)
  | @spawn t u e k s th running enabled child free ok => exact (h.set t (some ⟨_, _⟩)).set u _
  | finish running => exact h.set _ _
  | crash ok => exact ⟨0, fun _ _ => rfl⟩

/-- There is room for one more thread, at another number than `v`. -/
theorem Config.Finite.room {c : Config E R σ S α} (h : c.Finite) (v : Nat) :
    ∃ u, u ≠ v ∧ c.threads u = none := by
  obtain ⟨n, none⟩ := h
  exact ⟨max n (v + 1), by omega, none _ (by omega)⟩

/-- A fact about the state, and one about every thread that goes by its own
number, its program and its note. -/
structure Assertion (E : Type) (R : E → Type) (σ S α : Type) where
  world : σ → Prop
  thread : Nat → Thread E R S α → σ → Prop

structure Assertion.Holds (P : Assertion E R σ S α) (c : Config E R σ S α) : Prop where
  world : P.world c.world
  thread : ∀ t th, c.threads t = some th → P.thread t th c.world

/-- What a thread's own calls establish and the calls of the others keep, where
`K` is known of the configuration. -/
structure Assertion.Stable (P : Assertion E R σ S α) (K : Config E R σ S α → Prop) : Prop where
  own : ∀ c t e k s, K c → P.Holds c → c.threads t = some ⟨.call e k, s⟩ →
    M.enabled t e c.world = true → D.call c t e →
    P.world (M.exec t e c.world).2 ∧
      P.thread t ⟨k (M.exec t e c.world).1, M.note s e (M.exec t e c.world).1⟩
        (M.exec t e c.world).2
  other : ∀ c t e k s u th, K c → P.Holds c → c.threads t = some ⟨.call e k, s⟩ →
    M.enabled t e c.world = true → D.call c t e → u ≠ t → c.threads u = some th →
    P.thread u th (M.exec t e c.world).2
  start : ∀ c t th, K c → P.Holds c → c.threads t = none → M.starts th → D.start c th →
    P.thread t th c.world
  spawn : ∀ c t e k s u child, K c → P.Holds c → c.threads t = some ⟨.call e k, s⟩ →
    M.spawn t e = some child → c.threads u = none → D.call c t e →
    P.thread u child (M.exec t e c.world).2
  crash : ∀ c, K c → P.Holds c → D.crash c → P.world (M.restart c.world)

theorem Assertion.Holds.set {P : Assertion E R σ S α} {c : Config E R σ S α} (h : P.Holds c)
    (t : Nat) {o : Option (Thread E R S α)} (new : ∀ th, o = some th → P.thread t th c.world) :
    P.Holds (c.set t o) := by
  refine ⟨h.world, fun u th hu => ?_⟩
  by_cases he : u = t
  · subst u
    exact new th (by simpa using hu)
  · exact h.thread u th (by simpa [Config.set_other _ _ he] using hu)

variable {M D}

theorem Assertion.Stable.after {P : Assertion E R σ S α} {K : Config E R σ S α → Prop}
    (stable : P.Stable M D K) {c : Config E R σ S α} {t : Nat} {e : E} {k : R e → Prog E R α}
    {s : S}
    (known : K c) (h : P.Holds c) (running : c.threads t = some ⟨.call e k, s⟩)
    (enabled : M.enabled t e c.world = true) (ok : D.call c t e) : P.Holds (M.after c t e k s) := by
  obtain ⟨world, own⟩ := stable.own c t e k s known h running enabled ok
  refine ⟨world, fun u th hu => ?_⟩
  by_cases he : u = t
  · subst u
    have hth : th = ⟨k (M.exec t e c.world).1, M.note s e (M.exec t e c.world).1⟩ := by
      simpa [System.after, eq_comm] using hu
    exact hth ▸ own
  · have hu : c.threads u = some th := by simpa [System.after, he] using hu
    exact stable.other c t e k s u th known h running enabled ok he hu

theorem Assertion.Stable.step {P : Assertion E R σ S α} {K : Config E R σ S α → Prop}
    (stable : P.Stable M D K) {c c' : Config E R σ S α} (known : K c) (h : P.Holds c)
    (hs : Step M D c c') : P.Holds c' := by
  cases hs with
  | start free starts ok =>
    refine h.set _ fun th hth => ?_
    cases hth
    exact stable.start _ _ _ known h free starts ok
  | call running enabled alone ok => exact stable.after known h running enabled ok
  | spawn running enabled child free ok =>
    refine (stable.after known h running enabled ok).set _ fun th hth => ?_
    cases hth
    exact stable.spawn _ _ _ _ _ _ _ known h running child free ok
  | finish running => exact h.set _ fun th hth => by cases hth
  | crash ok => exact ⟨stable.crash _ known h ok, fun t th ht => by cases ht⟩

/-- What is stable where `K` is known holds along every run, with `K`. -/
theorem Assertion.Stable.reach {P : Assertion E R σ S α} {K : Config E R σ S α → Prop}
    (stable : P.Stable M D K) (keeps : ∀ c c', K c → Step M D c c' → K c')
    {c c' : Config E R σ S α} (h : Reach M D c c') (known : K c) (hc : P.Holds c) :
    K c' ∧ P.Holds c' := by
  refine Reach.invariant M D (I := fun c => K c ∧ P.Holds c) ?_ h ⟨known, hc⟩
  intro c c' ⟨known, hc⟩ hs
  exact ⟨keeps c c' known hs, stable.step known hc hs⟩

variable (M) in
/-- Every thread keeps to the protocol from where it stands and ends with `Q`. -/
def conforming (A : (e : E) → R e → Prop) (allows : S → E → Prop) (Q : α → S → Prop) :
    Assertion E R σ S α where
  world _ := True
  thread _ th _ := Follows A allows M.note th.prog th.seen Q

theorem conforming_stable {A : (e : E) → R e → Prop} {allows : S → E → Prop} {Q : α → S → Prop}
    (answers : ∀ t e w, A e (M.exec t e w).1)
    (starts : ∀ th, M.starts th → Follows A allows M.note th.prog th.seen Q)
    (spawns : ∀ t e th, M.spawn t e = some th → Follows A allows M.note th.prog th.seen Q) :
    (conforming M A allows Q).Stable M D fun _ => True where
  own _ t e _ _ _ h running _ _ := ⟨trivial, (h.thread t _ running).2 _ (answers t e _)⟩
  other _ _ _ _ _ u th _ h _ _ _ _ hu := h.thread u th hu
  start _ _ th _ _ _ st _ := starts th st
  spawn _ t e _ _ _ child _ _ _ hc _ _ := spawns t e child hc
  crash _ _ _ _ := trivial

/-- The next call of a conforming thread is allowed. -/
theorem allowed_of_conforming {A : (e : E) → R e → Prop} {allows : S → E → Prop} {Q : α → S → Prop}
    {c : Config E R σ S α} (h : (conforming M A allows Q).Holds c) {t : Nat} {e : E}
    {k : R e → Prog E R α} {s : S} (running : c.threads t = some ⟨.call e k, s⟩) : allows s e :=
  (h.thread t _ running).1

/-- What is settled in the state, and what a thread still owes by its note. -/
structure Account (σ S ι : Type) where
  settled : σ → ι → Prop
  owes : S → ι → Prop

/-- Whatever is not settled is owed by a thread. -/
def Account.Balanced {ι : Type} (A : Account σ S ι) (c : Config E R σ S α) : Prop :=
  ∀ i, A.settled c.world i ∨ ∃ t th, c.threads t = some th ∧ A.owes th.seen i

/-- What a call unsettles, and what its thread owed, is settled afterwards or owed
by this thread or another; a thread that ends owes nothing, and a kill leaves
nothing unsettled. -/
structure Account.Kept {ι : Type} (A : Account σ S ι) (M : System E R σ S α)
    (D : Discipline E R σ S α) (K : Config E R σ S α → Prop) : Prop where
  call : ∀ c t e k s i, K c → c.threads t = some ⟨.call e k, s⟩ → D.call c t e →
    A.settled c.world i ∨ A.owes s i →
    A.settled (M.exec t e c.world).2 i ∨ A.owes (M.note s e (M.exec t e c.world).1) i ∨
      ∃ u th, u ≠ t ∧ c.threads u = some th ∧ A.owes th.seen i
  finish : ∀ c t a s i, K c → c.threads t = some ⟨.ret a, s⟩ → ¬ A.owes s i
  crash : ∀ c i, K c → D.crash c →
    A.settled c.world i ∨ (∃ t th, c.threads t = some th ∧ A.owes th.seen i) →
    A.settled (M.restart c.world) i

theorem Account.Kept.after {ι : Type} {A : Account σ S ι} {K : Config E R σ S α → Prop}
    (kept : A.Kept M D K) {c : Config E R σ S α} {t : Nat} {e : E} {k : R e → Prog E R α} {s : S}
    (known : K c) (h : A.Balanced c) (running : c.threads t = some ⟨.call e k, s⟩)
    (ok : D.call c t e) : A.Balanced (M.after c t e k s) := by
  intro i
  have own : A.settled c.world i ∨ A.owes s i → A.settled (M.after c t e k s).world i ∨
      ∃ u th, (M.after c t e k s).threads u = some th ∧ A.owes th.seen i := by
    intro before
    rcases kept.call c t e k s i known running ok before with
      settled | owes | ⟨u, th, away, there, owes⟩
    · exact Or.inl settled
    · exact Or.inr ⟨t, _, after_self M c t e k s, owes⟩
    · exact Or.inr ⟨u, th, by simpa [System.after, away] using there, owes⟩
  rcases h i with settled | ⟨u, th, there, owes⟩
  · exact own (Or.inl settled)
  · by_cases he : u = t
    · subst u
      rw [running] at there
      cases there
      exact own (Or.inr owes)
    · exact Or.inr ⟨u, th, by simpa [System.after, he] using there, owes⟩

/-- A new thread takes nothing away. -/
theorem Account.Balanced.add {ι : Type} {A : Account σ S ι} {c : Config E R σ S α}
    (h : A.Balanced c) {t : Nat} (free : c.threads t = none) (th : Thread E R S α) :
    A.Balanced (c.set t (some th)) := by
  intro i
  rcases h i with settled | ⟨u, th', there, owes⟩
  · exact Or.inl settled
  · have away : u ≠ t := by
      rintro rfl
      rw [free] at there
      cases there
    exact Or.inr ⟨u, th', (Config.set_other _ _ away).trans there, owes⟩

theorem Account.Kept.step {ι : Type} {A : Account σ S ι} {K : Config E R σ S α → Prop}
    (kept : A.Kept M D K) {c c' : Config E R σ S α} (known : K c) (h : A.Balanced c)
    (hs : Step M D c c') : A.Balanced c' := by
  cases hs with
  | start free starts ok => exact h.add free _
  | call running enabled alone ok => exact kept.after known h running ok
  | @spawn t u e k s th running enabled child free ok =>
    refine (kept.after known h running ok).add ?_ _
    have away : u ≠ t := by
      rintro rfl
      rw [free] at running
      cases running
    simpa [System.after, away] using free
  | @finish t a s running =>
    intro i
    rcases h i with settled | ⟨u, th, there, owes⟩
    · exact Or.inl settled
    · have away : u ≠ t := by
        rintro rfl
        rw [running] at there
        cases there
        exact kept.finish c u a s i known running owes
      exact Or.inr ⟨u, th, (Config.set_other _ _ away).trans there, owes⟩
  | crash ok => exact fun i => Or.inl (kept.crash c i known ok (h i))

/-- No thread has a call to make. -/
def Config.Quiet (c : Config E R σ S α) : Prop :=
  ∀ t th, c.threads t = some th → ∃ a, th.prog = .ret a

/-- When all is quiet, all is settled. -/
theorem Account.Kept.settled_of_quiet {ι : Type} {A : Account σ S ι} {K : Config E R σ S α → Prop}
    (kept : A.Kept M D K) {c : Config E R σ S α} (known : K c) (h : A.Balanced c) (quiet : c.Quiet)
    (i : ι) : A.settled c.world i := by
  rcases h i with settled | ⟨t, th, there, owes⟩
  · exact settled
  · obtain ⟨a, ended⟩ := quiet t th there
    obtain ⟨prog, s⟩ := th
    subst ended
    exact absurd owes (kept.finish c t a s i known there)

variable (M D)

/-- One call of thread `t`, if it can be made and `ok` admits it. -/
def System.advance (ok : Config E R σ S α → Nat → E → Bool) (t : Nat) (c : Config E R σ S α) :
    Option (Config E R σ S α) :=
  match c.threads t with
  | some ⟨.call e k, s⟩ =>
    if M.enabled t e c.world = true ∧ (M.spawn t e).isNone = true ∧ ok c t e = true then
      some (M.after c t e k s)
    else none
  | _ => none

def System.play (ok : Config E R σ S α → Nat → E → Bool) :
    List Nat → Config E R σ S α → Option (Config E R σ S α)
  | [], c => some c
  | t :: ts, c => (M.advance ok t c).bind (System.play ok ts)

variable {M D}

theorem advance_cases {ok : Config E R σ S α → Nat → E → Bool} {t : Nat} {c c' : Config E R σ S α}
    (h : M.advance ok t c = some c') :
    ∃ e k s, c.threads t = some ⟨.call e k, s⟩ ∧ M.enabled t e c.world = true ∧
      M.spawn t e = none ∧ ok c t e = true ∧ c' = M.after c t e k s := by
  unfold System.advance at h
  split at h
  · rename_i e k s running
    split at h
    · rename_i able
      exact ⟨e, k, s, running, able.1, Option.isNone_iff_eq_none.mp able.2.1, able.2.2,
        (Option.some.inj h).symm⟩
    · cases h
  · cases h

/-- A schedule is a run when what it keeps to, with what it preserves, is enough
for the discipline. -/
theorem play_reach_of {ok : Config E R σ S α → Nat → E → Bool} {I : Config E R σ S α → Prop}
    (keeps : ∀ c t c', I c → M.advance ok t c = some c' → I c')
    (admitted : ∀ c t e, I c → ok c t e = true → D.call c t e) {ts : List Nat}
    {c c' : Config E R σ S α} (h : M.play ok ts c = some c') (hc : I c) : Reach M D c c' := by
  induction ts generalizing c with
  | nil => cases h; exact .refl
  | cons t ts ih =>
    obtain ⟨d, hd, hrest⟩ := Option.bind_eq_some_iff.mp h
    obtain ⟨e, k, s, running, enabled, alone, able, rfl⟩ := advance_cases hd
    exact .head (.call running enabled alone (admitted c t e hc able)) (ih hrest (keeps c t _ hc hd))

theorem play_reach {ok : Config E R σ S α → Nat → E → Bool}
    (admitted : ∀ c t e, ok c t e = true → D.call c t e) {ts : List Nat}
    {c c' : Config E R σ S α} (h : M.play ok ts c = some c') : Reach M D c c' :=
  play_reach_of (I := fun _ => True) (fun _ _ _ _ _ => trivial) (fun c t e _ => admitted c t e) h
    trivial

/-- A schedule starts no threads. -/
theorem advance_bounded {ok : Config E R σ S α → Nat → E → Bool} {t n : Nat}
    {c c' : Config E R σ S α} (bounded : ∀ u, n ≤ u → c.threads u = none)
    (h : M.advance ok t c = some c') : ∀ u, n ≤ u → c'.threads u = none := by
  obtain ⟨e, k, s, running, -, -, -, rfl⟩ := advance_cases h
  intro u hu
  have away : u ≠ t := by
    rintro rfl
    rw [bounded u hu] at running
    cases running
  exact (Function.update_of_ne away _ _).trans (bounded u hu)

theorem play_bounded {ok : Config E R σ S α → Nat → E → Bool} {ts : List Nat} {n : Nat}
    {c c' : Config E R σ S α} (bounded : ∀ u, n ≤ u → c.threads u = none)
    (h : M.play ok ts c = some c') : ∀ u, n ≤ u → c'.threads u = none := by
  induction ts generalizing c with
  | nil => cases h; exact bounded
  | cons t ts ih =>
    obtain ⟨d, hd, hrest⟩ := Option.bind_eq_some_iff.mp h
    exact ih (advance_bounded bounded hd) hrest

/-- The result and the note of a thread that has ended. -/
def Config.outcome (c : Config E R σ S α) (t : Nat) : Option (α × S) :=
  match c.threads t with
  | some ⟨.ret a, s⟩ => some (a, s)
  | _ => none

theorem thread_of_outcome {c : Config E R σ S α} {t : Nat} {a : α} {s : S}
    (h : c.outcome t = some (a, s)) : c.threads t = some ⟨.ret a, s⟩ := by
  unfold Config.outcome at h
  split at h
  · cases h
    assumption
  · cases h

theorem outcome_of_thread {c : Config E R σ S α} {t : Nat} {a : α} {s : S}
    (h : c.threads t = some ⟨.ret a, s⟩) : c.outcome t = some (a, s) := by
  simp [Config.outcome, h]

/-- The first `n` threads have ended. -/
def Config.resting (n : Nat) (c : Config E R σ S α) : Bool :=
  (List.range n).all fun t => (c.outcome t).isSome

theorem quiet_of_resting {c : Config E R σ S α} {n : Nat}
    (bounded : ∀ t, n ≤ t → c.threads t = none) (ended : c.resting n = true) : c.Quiet := by
  intro t th there
  by_cases hn : t < n
  · have result := List.all_eq_true.mp ended t (List.mem_range.mpr hn)
    obtain ⟨⟨a, s⟩, result⟩ := Option.isSome_iff_exists.mp result
    cases there.symm.trans (thread_of_outcome result)
    exact ⟨a, rfl⟩
  · cases (bounded t (by omega)).symm.trans there

/-- The threads of a list side by side, the last of them as thread 0. -/
def Config.crowd (w : σ) : List (Thread E R S α) → Config E R σ S α
  | [] => ⟨fun _ => none, w⟩
  | th :: rest => (Config.crowd w rest).set rest.length (some th)

theorem crowd_free (w : σ) (crowd : List (Thread E R S α)) (t : Nat) (h : crowd.length ≤ t) :
    (Config.crowd w crowd).threads t = none := by
  induction crowd with
  | nil => rfl
  | cons th rest ih =>
    rw [List.length_cons] at h
    exact (Config.set_other _ _ (by omega)).trans (ih (by omega))

theorem crowd_reach (ok : ∀ c th, D.start c th) (w : σ) (crowd : List (Thread E R S α))
    (starts : ∀ th ∈ crowd, M.starts th) : Reach M D (Config.crowd w [])
    (Config.crowd w crowd) := by
  induction crowd with
  | nil => exact .refl
  | cons th rest ih =>
    refine .tail (ih fun th hth => starts th (List.mem_cons_of_mem _ hth)) ?_
    exact .start (crowd_free w rest _ (Nat.le_refl _)) (starts th List.mem_cons_self) (ok _ _)

variable (M D)

/-- The same system with a list of the calls made so far: which thread made
which call, and in which state. -/
def System.recording : System E R (σ × List (Nat × E × σ)) S α where
  exec t e w := ((M.exec t e w.1).1, (M.exec t e w.1).2, w.2 ++ [(t, e, w.1)])
  enabled t e w := M.enabled t e w.1
  note := M.note
  spawn := M.spawn
  starts := M.starts
  restart w := (M.restart w.1, w.2)

def Config.recorded (c : Config E R σ S α) (log : List (Nat × E × σ)) :
    Config E R (σ × List (Nat × E × σ)) S α :=
  ⟨c.threads, (c.world, log)⟩

/-- The discipline does not look at the list. -/
def Discipline.recording : Discipline E R (σ × List (Nat × E × σ)) S α where
  start c th := D.start ⟨c.threads, c.world.1⟩ th
  call c t e := D.call ⟨c.threads, c.world.1⟩ t e
  crash c := D.crash ⟨c.threads, c.world.1⟩

/-- A run and the list of its calls: every run has one (`Reach.records`), and only runs
do (`Records.reach`). -/
def Records (c : Config E R σ S α) (log : List (Nat × E × σ)) (c' : Config E R σ S α) : Prop :=
  Reach M.recording D.recording (c.recorded []) (c'.recorded log)

variable {M D}

theorem Step.recorded {c c' : Config E R σ S α} (hs : Step M D c c') (log : List (Nat × E × σ)) :
    ∃ log', Step M.recording D.recording (c.recorded log) (c'.recorded log') := by
  cases hs with
  | start free starts ok => exact ⟨log, .start free starts ok⟩
  | call running enabled alone ok => exact ⟨_, .call running enabled alone ok⟩
  | spawn running enabled child free ok => exact ⟨_, .spawn running enabled child free ok⟩
  | finish running => exact ⟨log, .finish running⟩
  | crash ok => exact ⟨log, .crash ok⟩

theorem Reach.records {c c' : Config E R σ S α} (h : Reach M D c c') :
    ∃ log, Records M D c log c' := by
  induction h with
  | refl => exact ⟨[], .refl⟩
  | tail _ hs ih =>
    obtain ⟨log, run⟩ := ih
    obtain ⟨log', next⟩ := Step.recorded hs log
    exact ⟨log', .tail run next⟩

theorem Step.forget {c c' : Config E R (σ × List (Nat × E × σ)) S α}
    (hs : Step M.recording D.recording c c') :
    Step M D ⟨c.threads, c.world.1⟩ ⟨c'.threads, c'.world.1⟩ := by
  cases hs with
  | start free starts ok => exact .start free starts ok
  | call running enabled alone ok => exact .call running enabled alone ok
  | spawn running enabled child free ok => exact .spawn running enabled child free ok
  | finish running => exact .finish running
  | crash ok => exact .crash ok

theorem Reach.forget {c c' : Config E R (σ × List (Nat × E × σ)) S α}
    (h : Reach M.recording D.recording c c') :
    Reach M D ⟨c.threads, c.world.1⟩ ⟨c'.threads, c'.world.1⟩ := by
  induction h with
  | refl => exact .refl
  | tail _ hs ih => exact .tail ih hs.forget

theorem Records.reach {c c' : Config E R σ S α} {log : List (Nat × E × σ)}
    (h : Records M D c log c') : Reach M D c c' := Reach.forget h

end

end ThreadPools
