import CertMate.ThreadPools

/-!
# Runs of some of the threads

A second run of threads of a pool, without the others, where the outside is at every call what
it was at that call of the first run. Two programs keep pace when they make related calls as
long as they get related answers, but for calls that one of them makes alone.
-/
namespace PacedRuns
open CallTrees ThreadPools

section Alone
variable {E : Type} {R : E → Type} {O σ α : Type}

/-- How calls are answered in an outside, and what a restart there makes of the state. -/
structure Surroundings (E : Type) (R : E → Type) (O σ : Type) where
  exec : Nat → (e : E) → O → σ → R e × σ
  restart : O → σ → σ

structure State (E : Type) (R : E → Type) (σ α : Type) where
  threads : Nat → Option (Prog E R α)
  world : σ

/-- A run of the threads with the list of its calls, each with the outside it was made in. -/
inductive Runs (X : Surroundings E R O σ) (c : State E R σ α) :
    List (Nat × E × O) → State E R σ α → Prop
  | refl : Runs X c [] c
  | call {log : List (Nat × E × O)} {d : State E R σ α} {t : Nat} {e : E} {k : R e → Prog E R α}
      (run : Runs X c log d) (running : d.threads t = some (.call e k)) (o : O) :
      Runs X c (log ++ [(t, e, o)])
        ⟨Function.update d.threads t (some (k (X.exec t e o d.world).1)), (X.exec t e o d.world).2⟩
  | kill {log : List (Nat × E × O)} {d : State E R σ α} (run : Runs X c log d) (o : O) :
      Runs X c log ⟨fun _ => none, X.restart o d.world⟩

theorem Runs.trans {X : Surroundings E R O σ} {c d f : State E R σ α}
    {log log' : List (Nat × E × O)} (h : Runs X c log d) (rest : Runs X d log' f) :
    Runs X c (log ++ log') f := by
  induction rest with
  | refl => rwa [List.append_nil]
  | call _ running o ih =>
    rw [← List.append_assoc]
    exact .call ih running o
  | kill _ o ih => exact .kill ih o

end Alone

section Programs
variable {E F : Type} {R : E → Type} {T : F → Type} {α α' β β' : Type}

/-- Which calls go together and on which answers both programs go on, which call
the first program makes alone and the answers it goes on with, and which call the second makes
alone, with the answer to it. -/
structure Pace (E : Type) (R : E → Type) where
  calls : E → E → Prop
  answers : (e e' : E) → R e → R e' → Prop
  left : E → Prop
  passes : (e : E) → R e → Prop
  right : (e : E) → R e → Prop

/-- The programs keep pace up to their ends, where `Q` holds of the results. -/
inductive Paced (L : Pace E R) (Q : α → α' → Prop) : Prog E R α → Prog E R α' → Prop
  | ret {a : α} {a' : α'} (ends : Q a a') : Paced L Q (.ret a) (.ret a')
  | call {e e' : E} {k : R e → Prog E R α} {k' : R e' → Prog E R α'} (related : L.calls e e')
      (next : ∀ r r', L.answers e e' r r' → Paced L Q (k r) (k' r')) :
      Paced L Q (.call e k) (.call e' k')
  | left {e : E} {k : R e → Prog E R α} {p' : Prog E R α'} (alone : L.left e)
      (next : ∀ r, L.passes e r → Paced L Q (k r) p') : Paced L Q (.call e k) p'
  | right {e e' : E} {k : R e → Prog E R α} {k' : R e' → Prog E R α'} {r' : R e'}
      (alone : L.right e' r') (next : Paced L Q (.call e k) (k' r')) :
      Paced L Q (.call e k) (.call e' k')

variable {L : Pace E R}

theorem Paced.bind {Q : α → α' → Prop} {Q' : β → β' → Prop} {p : Prog E R α} {p' : Prog E R α'}
    {f : α → Prog E R β} {f' : α' → Prog E R β'} (h : Paced L Q p p')
    (next : ∀ a a', Q a a' → Paced L Q' (f a) (f' a')) : Paced L Q' (p >>= f) (p' >>= f') := by
  induction h with
  | ret ends => exact next _ _ ends
  | call related _ ih => exact .call related ih
  | left alone _ ih => exact .left alone ih
  | right alone _ ih => exact .right alone ih

/-- A program keeps pace with itself where all its calls do and are told the same. -/
theorem Paced.refl (calls : ∀ e, L.calls e e) (told : ∀ e r r', L.answers e e r r' → r' = r)
    (p : Prog E R α) : Paced L (fun a a' => a' = a) p p := by
  induction p with
  | ret a => exact .ret rfl
  | call e k ih =>
    refine .call (calls e) fun r r' answered => ?_
    obtain rfl := told e r r' answered
    exact ih r'

/-- The calls of one language as calls of another. -/
theorem Paced.lift {K : Pace F T} {g : (f : F) → Prog E R (T f)} {Q : α → α' → Prop}
    (calls : ∀ f f', K.calls f f' → Paced L (K.answers f f') (g f) (g f'))
    (left : ∀ f (k : T f → Prog E R α) (p' : Prog E R α'), K.left f →
      (∀ r, K.passes f r → Paced L Q (k r) p') → Paced L Q (g f >>= k) p')
    (right : ∀ f f' r' (k : T f → Prog E R α) (k' : T f' → Prog E R α'), K.right f' r' →
      Paced L Q (g f >>= k) (k' r') → Paced L Q (g f >>= k) (g f' >>= k'))
    {p : Prog F T α} {p' : Prog F T α'} (h : Paced K Q p p') :
    Paced L Q (p.lift g) (p'.lift g) := by
  induction h with
  | ret ends => exact .ret ends
  | call related _ ih => exact (calls _ _ related).bind ih
  | left alone _ ih => exact left _ _ _ alone ih
  | right alone _ ih => exact right _ _ _ _ _ alone ih

end Programs

section Pools
variable {E : Type} {R : E → Type} {σ S α O σ' V : Type}

/-- What ties a pool to the surroundings of the second run: the threads that are left out and
the calls these make, the outside that a state of the pool is, how the states are related, and
what of a call is compared. -/
structure Tie (E : Type) (O σ σ' V : Type) where
  absent : Nat → Prop
  theirs : E → Prop
  outside : σ → O
  worlds : σ → σ' → Prop
  seen : Nat → E → O → Option V

def Tie.entry (A : Tie E O σ σ' V) (call : Nat × E × O) : Option V :=
  A.seen call.1 call.2.1 call.2.2

variable (A : Tie E O σ σ' V) (L : Pace E R) (M : System E R σ S α) (D : Discipline E R σ S α)
variable (X : Surroundings E R O σ') (Q : α → α → Prop)

/-- What a call of the one run does, the same call of the other does in the same outside; calls
that one of them makes alone are not compared and spare the relation. -/
structure Tie.Kept : Prop where
  both : ∀ t e e' w w', ¬ A.absent t → L.calls e e' → A.worlds w w' →
    L.answers e e' (M.exec t e w).1 (X.exec t e' (A.outside w) w').1 ∧
      A.worlds (M.exec t e w).2 (X.exec t e' (A.outside w) w').2 ∧
      A.seen t e (A.outside w) = A.seen t e' (A.outside w)
  left : ∀ c t e w', ¬ A.absent t → L.left e → D.call c t e → A.worlds c.world w' →
    L.passes e (M.exec t e c.world).1 ∧ A.worlds (M.exec t e c.world).2 w' ∧
      A.seen t e (A.outside c.world) = none
  right : ∀ t e r w w', L.right e r → A.worlds w w' →
    ∃ o, (X.exec t e o w').1 = r ∧ A.worlds w (X.exec t e o w').2 ∧ A.seen t e o = none
  absent : ∀ t e w w', A.absent t → A.theirs e → A.worlds w w' →
    A.worlds (M.exec t e w).2 w' ∧ A.seen t e (A.outside w) = none
  restart : ∀ w w', A.worlds w w' → A.worlds (M.restart w) (X.restart (A.outside w) w')
  closed : ∀ c th, ¬ D.start c th
  alone : ∀ t e, (A.theirs e ∨ L.left e ∨ ∃ e', L.calls e e') → M.spawn t e = none

/-- The threads that are not left out keep pace with their counterparts. -/
structure Tie.Linked (c : Config E R σ S α) (d : State E R σ' α) : Prop where
  worlds : A.worlds c.world d.world
  absent : ∀ t th, c.threads t = some th → A.absent t →
    Only (fun _ _ => True) A.theirs th.prog
  paced : ∀ t th, c.threads t = some th → ¬ A.absent t →
    ∃ p', d.threads t = some p' ∧ Paced L Q th.prog p'

variable {A L M D X Q} {c c' : Config E R σ S α} {d : State E R σ' α}

/-- The second run catches up with a call of the first. -/
theorem Tie.Kept.advance (kept : A.Kept L M D X) {p p' : Prog E R α} (paced : Paced L Q p p')
    {t : Nat} {e : E} {k : R e → Prog E R α} (calls : p = .call e k) (present : ¬ A.absent t)
    (ok : D.call c t e) (there : d.threads t = some p') (worlds : A.worlds c.world d.world) :
    ∃ log d', Runs X d log d' ∧
      log.filterMap A.entry = (A.seen t e (A.outside c.world)).toList ∧
      A.worlds (M.exec t e c.world).2 d'.world ∧ (∀ u, u ≠ t → d'.threads u = d.threads u) ∧
      ∃ p'', d'.threads t = some p'' ∧ Paced L Q (k (M.exec t e c.world).1) p'' := by
  induction paced generalizing d with
  | ret ends => cases calls
  | @call e' f' k' l' related next =>
    cases calls
    obtain ⟨told, after, same⟩ := kept.both t e f' c.world d.world present related worlds
    refine ⟨[(t, f', A.outside c.world)], _, .call .refl there (A.outside c.world), ?_, after,
      fun u away => Function.update_of_ne away _ _, _, Function.update_self _ _ _, next _ _ told⟩
    rw [same]
    cases seen : A.seen t f' (A.outside c.world) with
    | none => simp [Tie.entry, seen]
    | some v => simp [Tie.entry, seen]
  | left alone next =>
    cases calls
    obtain ⟨passed, after, hidden⟩ := kept.left c t e d.world present alone ok worlds
    refine ⟨[], d, .refl, ?_, after, fun _ _ => rfl, _, there, next _ passed⟩
    rw [hidden]
    rfl
  | @right e' f' k' l' r' alone next ih =>
    obtain ⟨o, answer, after, hidden⟩ := kept.right t f' r' c.world d.world alone worlds
    obtain ⟨log, d', run, same, worlds', others, p'', there', paced⟩ :=
      ih (d := ⟨Function.update d.threads t (some (l' (X.exec t f' o d.world).1)),
        (X.exec t f' o d.world).2⟩) calls
        ((Function.update_self _ _ _).trans (by rw [answer])) after
    refine ⟨[(t, f', o)] ++ log, d', (Runs.call .refl there o).trans run, ?_, worlds',
      fun u away => (others u away).trans (Function.update_of_ne away _ _), p'', there', paced⟩
    rw [List.filterMap_append, same]
    simp [Tie.entry, hidden]

/-- One call of the pool, followed by the second run. -/
theorem Tie.Kept.after (kept : A.Kept L M D X) (h : A.Linked L Q c d) {t : Nat} {e : E}
    {k : R e → Prog E R α} {s : S} (running : c.threads t = some ⟨.call e k, s⟩)
    (ok : D.call c t e) :
    ∃ log d', Runs X d log d' ∧
      log.filterMap A.entry = (A.seen t e (A.outside c.world)).toList ∧
      A.Linked L Q (M.after c t e k s) d' := by
  have other : ∀ u th, u ≠ t → (M.after c t e k s).threads u = some th → c.threads u = some th :=
    fun u th away there => (Function.update_of_ne away _ _).symm.trans there
  by_cases absent : A.absent t
  · have follows := h.absent t _ running absent
    obtain ⟨worlds, hidden⟩ := kept.absent t e c.world d.world absent follows.1 h.worlds
    refine ⟨[], d, .refl, ?_, worlds, fun u th there away => ?_, fun u th there present => ?_⟩
    · rw [hidden]
      rfl
    · by_cases same : u = t
      · subst same
        cases there.symm.trans (after_self M c u e k s)
        exact follows.2 _ trivial
      · exact h.absent u th (other u th same there) away
    · have away : u ≠ t := by
        rintro rfl
        exact present absent
      exact h.paced u th (other u th away there) present
  · obtain ⟨p', there, paced⟩ := h.paced t _ running absent
    obtain ⟨log, d', run, same, worlds, others, p'', there', next⟩ :=
      kept.advance paced rfl absent ok there h.worlds
    refine ⟨log, d', run, same, worlds, fun u th there away => ?_, fun u th there present => ?_⟩
    · have away' : u ≠ t := by
        rintro rfl
        exact absent away
      exact h.absent u th (other u th away' there) away
    · by_cases here : u = t
      · subst here
        cases there.symm.trans (after_self M c u e k s)
        exact ⟨p'', there', next⟩
      · obtain ⟨q, hq, paced⟩ := h.paced u th (other u th here there) present
        exact ⟨q, (others u here).trans hq, paced⟩

/-- What of the calls of the pool is compared. -/
def Tie.recorded (A : Tie E O σ σ' V) (log : List (Nat × E × σ)) : List V :=
  log.filterMap fun call => A.seen call.1 call.2.1 (A.outside call.2.2)

theorem Tie.recorded_append (log : List (Nat × E × σ)) (t : Nat) (e : E) (w : σ) :
    A.recorded (log ++ [(t, e, w)]) = A.recorded log ++ (A.seen t e (A.outside w)).toList := by
  rw [Tie.recorded, List.filterMap_append]
  cases seen : A.seen t e (A.outside w) with
  | none => simp [Tie.recorded, seen]
  | some v => simp [Tie.recorded, seen]

/-- The call that a program keeping pace makes is one both make or its own. -/
theorem Paced.known {p' : Prog E R α} {e : E} {k : R e → Prog E R α}
    (h : Paced L Q (.call e k) p') : L.left e ∨ ∃ e', L.calls e e' := by
  generalize calling : Prog.call e k = p at h
  induction h with
  | ret ends => cases calling
  | call related next =>
    cases calling
    exact Or.inr ⟨_, related⟩
  | left alone next =>
    cases calling
    exact Or.inl alone
  | right alone next ih => exact ih calling

theorem Tie.Linked.known (h : A.Linked L Q c d) {t : Nat} {e : E} {k : R e → Prog E R α} {s : S}
    (running : c.threads t = some ⟨.call e k, s⟩) :
    A.theirs e ∨ L.left e ∨ ∃ e', L.calls e e' := by
  by_cases absent : A.absent t
  · exact Or.inl (h.absent t _ running absent).1
  · obtain ⟨p', -, paced⟩ := h.paced t _ running absent
    exact Or.inr paced.known

/-- A step of the pool with its calls recorded. -/
theorem Tie.Kept.step (kept : A.Kept L M D X) {x y : Config E R (σ × List (Nat × E × σ)) S α}
    (h : A.Linked L Q ⟨x.threads, x.world.1⟩ d) (hs : Step M.recording D.recording x y) :
    ∃ more d', Runs X d more d' ∧
      A.recorded y.world.2 = A.recorded x.world.2 ++ more.filterMap A.entry ∧
      A.Linked L Q ⟨y.threads, y.world.1⟩ d' := by
  cases hs with
  | start free starts ok => exact absurd ok (kept.closed _ _)
  | @call t e k s running enabled alone ok =>
    obtain ⟨more, d', run, same, linked⟩ := kept.after h running ok
    refine ⟨more, d', run, ?_, linked⟩
    rw [same]
    exact Tie.recorded_append x.world.2 t e x.world.1
  | @spawn t u e k s th running enabled child free ok =>
    have known : A.theirs e ∨ L.left e ∨ ∃ e', L.calls e e' := h.known running
    cases (kept.alone t e known).symm.trans child
  | @finish t a s running =>
    have other : ∀ u th, (x.set t none).threads u = some th → x.threads u = some th := by
      intro u th there
      by_cases same : u = t
      · subst same
        cases (Config.set_self x u none).symm.trans there
      · exact (Config.set_other x none same).symm.trans there
    refine ⟨[], d, .refl, (List.append_nil _).symm, h.worlds, fun u th there => ?_,
      fun u th there => ?_⟩
    · exact h.absent u th (other u th there)
    · exact h.paced u th (other u th there)
  | crash ok =>
    refine ⟨[], _, .kill .refl (A.outside x.world.1), (List.append_nil _).symm,
      kept.restart _ _ h.worlds, ?_, ?_⟩
    · rintro u th ⟨⟩
    · rintro u th ⟨⟩

/-- Every run of the pool has a second run of the threads that are not left out, in which the
same is seen of the calls. -/
theorem Tie.Kept.run (kept : A.Kept L M D X) (h : A.Linked L Q c d) {log : List (Nat × E × σ)}
    (records : Records M D c log c') :
    ∃ log' d', Runs X d log' d' ∧ A.recorded log = log'.filterMap A.entry ∧
      A.Linked L Q c' d' := by
  have all : ∀ y, Reach M.recording D.recording (c.recorded []) y →
      ∃ log' d', Runs X d log' d' ∧ A.recorded y.world.2 = log'.filterMap A.entry ∧
        A.Linked L Q ⟨y.threads, y.world.1⟩ d' := by
    intro y reach
    induction reach with
    | refl => exact ⟨[], d, .refl, rfl, h⟩
    | tail _ hs ih =>
      obtain ⟨log', d', run, same, linked⟩ := ih
      obtain ⟨more, d'', rest, same', linked'⟩ := kept.step linked hs
      refine ⟨log' ++ more, d'', run.trans rest, ?_, linked'⟩
      rw [same', same, List.filterMap_append]
  exact all _ records

/-- A thread that has ended has ended in both runs. -/
theorem Tie.Linked.ended (h : A.Linked L Q c d) {t : Nat} {a : α} {s : S}
    (ended : c.threads t = some ⟨.ret a, s⟩) (present : ¬ A.absent t) :
    ∃ a', d.threads t = some (.ret a') ∧ Q a a' := by
  obtain ⟨p', there, paced⟩ := h.paced t _ ended present
  cases paced with
  | ret ends => exact ⟨_, there, ends⟩

end Pools

end PacedRuns
