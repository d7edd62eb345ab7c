import CertMate.ThreadPools

/-!
# Runs in step

Two programs go in step when they make related calls as long as they get related answers.
Pools of such programs go through related states under the same schedule, whatever else the
programs and the states hold.
-/
namespace TwinRuns
open CallTrees ThreadPools

section Programs
variable {E E' : Type} {R : E → Type} {R' : E' → Type} {α α' β β' : Type}

/-- Related calls, on related answers up to the end, where `Q` holds of the results. -/
inductive Twin (C : E → E' → Prop) (A : (e : E) → (e' : E') → R e → R' e' → Prop)
    (Q : α → α' → Prop) : Prog E R α → Prog E' R' α' → Prop
  | ret {a : α} {a' : α'} (ends : Q a a') : Twin C A Q (.ret a) (.ret a')
  | call {e : E} {e' : E'} {k : R e → Prog E R α} {k' : R' e' → Prog E' R' α'} (related : C e e')
      (next : ∀ r r', A e e' r r' → Twin C A Q (k r) (k' r')) :
      Twin C A Q (.call e k) (.call e' k')

variable {C : E → E' → Prop} {A : (e : E) → (e' : E') → R e → R' e' → Prop}

theorem twin_perform {e : E} {e' : E'} (related : C e e') :
    Twin C A (A e e') (Prog.perform e) (Prog.perform e') :=
  .call related fun _ _ told => .ret told

theorem Twin.mono {Q Q' : α → α' → Prop} (weaker : ∀ a a', Q a a' → Q' a a')
    {p : Prog E R α} {p' : Prog E' R' α'} (h : Twin C A Q p p') : Twin C A Q' p p' := by
  induction h with
  | ret ends => exact .ret (weaker _ _ ends)
  | call related _ ih => exact .call related ih

theorem Twin.bind {Q : α → α' → Prop} {Q' : β → β' → Prop} {p : Prog E R α} {p' : Prog E' R' α'}
    {f : α → Prog E R β} {f' : α' → Prog E' R' β'} (h : Twin C A Q p p')
    (next : ∀ a a', Q a a' → Twin C A Q' (f a) (f' a')) : Twin C A Q' (p >>= f) (p' >>= f') := by
  induction h with
  | ret ends => exact next _ _ ends
  | call related _ ih => exact .call related ih

/-- The calls of one language as calls of another. -/
theorem Twin.lift {F F' : Type} {T : F → Type} {T' : F' → Type} {D : F → F' → Prop}
    {B : (f : F) → (f' : F') → T f → T' f' → Prop} {Q : α → α' → Prop}
    {g : (e : E) → Prog F T (R e)} {g' : (e' : E') → Prog F' T' (R' e')}
    (calls : ∀ e e', C e e' → Twin D B (A e e') (g e) (g' e')) {p : Prog E R α}
    {p' : Prog E' R' α'} (h : Twin C A Q p p') : Twin D B Q (p.lift g) (p'.lift g') := by
  induction h with
  | ret ends => exact .ret ends
  | call related _ ih => exact (calls _ _ related).bind ih

end Programs

section Pools
variable {E : Type} {R : E → Type} {σ S α : Type}

/-- What relates two runs of a pool: calls and their answers, results, notes and states. -/
structure Relation (E : Type) (R : E → Type) (σ S α : Type) where
  calls : E → E → Prop
  answers : (e e' : E) → R e → R e' → Prop
  results : α → α → Prop
  notes : S → S → Prop
  worlds : σ → σ → Prop

variable (L : Relation E R σ S α) (M : System E R σ S α)

def Relation.Threads (th th' : Thread E R S α) : Prop :=
  Twin L.calls L.answers L.results th.prog th'.prog ∧ L.notes th.seen th'.seen

/-- The same threads at work, in step, on related states. -/
structure Relation.Configs (c c' : Config E R σ S α) : Prop where
  free : ∀ t, c.threads t = none ↔ c'.threads t = none
  alike : ∀ t th th', c.threads t = some th → c'.threads t = some th' → L.Threads th th'
  worlds : L.worlds c.world c'.world

/-- Every call keeps the relation, and what one pool may start has a counterpart. -/
structure Relation.Kept : Prop where
  exec : ∀ t e e' w w', L.calls e e' → L.worlds w w' →
    L.answers e e' (M.exec t e w).1 (M.exec t e' w').1 ∧
      L.worlds (M.exec t e w).2 (M.exec t e' w').2
  enabled : ∀ t e e' w w', L.calls e e' → L.worlds w w' → M.enabled t e w = M.enabled t e' w'
  note : ∀ s s' e e' r r', L.notes s s' → L.calls e e' → L.answers e e' r r' →
    L.notes (M.note s e r) (M.note s' e' r')
  alone : ∀ t e, M.spawn t e = none
  starts : ∀ th, M.starts th → ∃ th', M.starts th' ∧ L.Threads th th'
  restart : ∀ w w', L.worlds w w' → L.worlds (M.restart w) (M.restart w')

variable {L M} {c c' d : Config E R σ S α}

theorem Relation.Configs.counterpart (h : L.Configs c c') {t : Nat} {th : Thread E R S α}
    (there : c.threads t = some th) :
    ∃ th', c'.threads t = some th' ∧ L.Threads th th' := by
  cases here : c'.threads t with
  | none =>
    rw [(h.free t).mpr here] at there
    cases there
  | some th' => exact ⟨th', rfl, h.alike t th th' there here⟩

/-- A thread and its counterpart in the place of others, on related states. -/
theorem Relation.Configs.update (h : L.Configs c c') (t : Nat)
    {o o' : Option (Thread E R S α)} (nones : o = none ↔ o' = none)
    (somes : ∀ th th', o = some th → o' = some th' → L.Threads th th') {w w' : σ}
    (worlds : L.worlds w w') :
    L.Configs ⟨Function.update c.threads t o, w⟩ ⟨Function.update c'.threads t o', w'⟩ := by
  refine ⟨fun u => ?_, fun u th th' => ?_, worlds⟩
  · by_cases same : u = t
    · subst same
      simpa using nones
    · simpa [Function.update_of_ne same] using h.free u
  · by_cases same : u = t
    · subst same
      simpa using somes th th'
    · simpa [Function.update_of_ne same] using h.alike u th th'

theorem Relation.Kept.step (kept : L.Kept M) (h : L.Configs c c') (hs : Step M .any c d) :
    ∃ d', Step M .any c' d' ∧ L.Configs d d' := by
  cases hs with
  | @start t th free starts ok =>
    obtain ⟨th', starts', alike⟩ := kept.starts th starts
    refine ⟨_, .start ((h.free t).mp free) starts' trivial, ?_⟩
    refine h.update t (by simp) ?_ h.worlds
    rintro _ _ ⟨⟩ ⟨⟩
    exact alike
  | @call t e k s running enabled alone ok =>
    obtain ⟨⟨prog, s'⟩, there, twin, notes⟩ := h.counterpart running
    cases twin with
    | @call _ e' _ k' related next =>
      obtain ⟨told, worlds⟩ := kept.exec t e e' c.world c'.world related h.worlds
      rw [kept.enabled t e e' c.world c'.world related h.worlds] at enabled
      refine ⟨_, .call there enabled (kept.alone t e') trivial, ?_⟩
      refine h.update t (by simp) ?_ worlds
      rintro _ _ ⟨⟩ ⟨⟩
      exact ⟨next _ _ told, kept.note s s' e e' _ _ notes related told⟩
  | @spawn t u e k s th running enabled child free ok =>
    rw [kept.alone t e] at child
    cases child
  | @finish t a s running =>
    obtain ⟨⟨prog, s'⟩, there, twin, notes⟩ := h.counterpart running
    cases twin with
    | ret ends =>
      refine ⟨_, .finish there, ?_⟩
      refine h.update t (by simp) ?_ h.worlds
      rintro _ _ ⟨⟩
  | crash ok =>
    refine ⟨_, .crash trivial, by simp, ?_, kept.restart _ _ h.worlds⟩
    rintro _ _ _ ⟨⟩

/-- Every run has a twin that goes through related configurations. -/
theorem Relation.Kept.reach (kept : L.Kept M) (h : L.Configs c c') (run : Reach M .any c d) :
    ∃ d', Reach M .any c' d' ∧ L.Configs d d' := by
  induction run with
  | refl => exact ⟨c', .refl, h⟩
  | tail _ hs ih =>
    obtain ⟨d', run', alike⟩ := ih
    obtain ⟨e', step, alike'⟩ := kept.step alike hs
    exact ⟨e', .tail run' step, alike'⟩

end Pools

end TwinRuns
