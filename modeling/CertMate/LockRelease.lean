import CertMate.ServicePool

/-!
# Who holds the locks

The lock of a certificate is taken with `TryLock` and given back by a deferred
`Unlock`. Whatever else runs, and however often the process is killed, a lock that
is held is held by an operation under way, and no operation ends with one.
-/
namespace LockRelease
open CertificateModel CallTrees ThreadPools ServiceWorld CertificateService ServiceProtocol
  ServiceSteps ServicePool
open SqliteStore hiding exec

section Moves
variable {request : Request} {phase phase' : Phase} {e : Eff} {r : Ans e} {lock : Nat}

/-- An operation that has a lock keeps it until it gives it back. -/
theorem lock_kept (h : Move request phase e r phase') (mine : phase.lock = some lock) :
    phase'.lock = some lock ∨ e = .unlock lock := by
  cases h with
  | release own => exact Or.inr (congrArg Eff.unlock (Option.some.inj (own.symm.trans mine)))
  | read fresh =>
    rcases fresh with rfl | ⟨v, rfl⟩ <;> cases mine
  | create | locate | take | refuse => cases mine
  | _ => exact Or.inl mine

/-- And what it tries to get it has, where it gets it. -/
theorem lock_taken (h : Move request phase (.tryLock lock) true phase') :
    phase'.lock = some lock := by
  cases h with
  | stay still => exact still.elim
  | deliver got => cases got
  | take => rfl

end Moves

/-- Who holds a lock is under way with it. -/
def Held (c : Configuration) : Prop :=
  ∀ lock t, c.world.holder lock = some t →
    ∃ th, c.threads t = some th ∧ th.seen.phase.lock = some lock

section Steps
variable {env : Environment} {s : Service} {c c' : Configuration}

/-- A lock that is held after a call was held before, or its thread has just got it. -/
theorem holder_back {t u : Nat} {e : Eff} {w : World} {lock : Nat}
    (held : (exec env t e w).2.holder lock = some u) :
    w.holder lock = some u ∧ e ≠ .unlock lock ∨
      u = t ∧ e = .tryLock lock ∧ w.holder lock = none := by
  have still : (∀ l, e ≠ .tryLock l ∧ e ≠ .unlock l) → w.holder lock = some u ∧ e ≠ .unlock lock ∨
      u = t ∧ e = .tryLock lock ∧ w.holder lock = none := by
    intro other
    rw [exec_holder other] at held
    exact Or.inl ⟨held, (other lock).2⟩
  have set : ∀ l th, lock ≠ l → Function.update w.holder l th lock = some u →
      w.holder lock = some u := by
    intro l th other held
    rwa [Function.update_of_ne other] at held
  cases e with
  | tryLock l =>
    simp only [exec] at held
    split at held
    · exact Or.inl ⟨held, by simp⟩
    · rename_i free
      by_cases same : lock = l
      · subst same
        simp only [Function.update_self, Option.some.injEq] at held
        exact Or.inr ⟨held.symm, rfl, free⟩
      · exact Or.inl ⟨set l _ same held, by simp⟩
  | unlock l =>
    simp only [exec] at held
    by_cases same : lock = l
    · subst same
      simp at held
    · exact Or.inl ⟨set l _ same held, by simpa using Ne.symm same⟩
  | _ => exact still fun l => ⟨by simp, by simp⟩

theorem Held.after (sound : Sound env s c) (h : Held c) {t : Nat} {e : Eff}
    {k : Ans e → Operation (Outcome Unit)} {l : Local}
    (running : c.threads t = some ⟨.call e k, l⟩) : Held ((pool env s).after c t e k l) := by
  intro lock u held
  have move := sound.move running
  rcases holder_back held with ⟨before, kept⟩ | ⟨rfl, rfl, free⟩
  · obtain ⟨th, there, mine⟩ := h lock u before
    by_cases own : u = t
    · subst own
      rw [running] at there
      cases there
      refine ⟨_, after_self _ _ _ _ _ _, ?_⟩
      exact (lock_kept move mine).resolve_right kept
    · exact ⟨th, (Function.update_of_ne own _ _).trans there, mine⟩
  · have got : (exec env u (.tryLock lock) c.world).1 = true := by
      simp only [exec, free]
    rw [got] at move
    refine ⟨_, after_self _ _ _ _ _ _, ?_⟩
    change (note l.phase (.tryLock lock) (exec env u (.tryLock lock) c.world).1).lock = some lock
    rw [got]
    exact lock_taken move

/-- A new thread takes no lock away. -/
theorem Held.add (h : Held c) {t : Nat} (free : c.threads t = none)
    (th : Thread Eff Ans Local (Outcome Unit)) : Held (c.set t (some th)) := by
  intro lock u held
  obtain ⟨th', there, mine⟩ := h lock u held
  have away : u ≠ t := by
    rintro rfl
    rw [free] at there
    cases there
  exact ⟨th', (Config.set_other _ _ away).trans there, mine⟩

theorem ended_unlocked (sound : Sound env s c) {t : Nat} {r : Outcome Unit} {l : Local}
    (ended : c.threads t = some ⟨.ret r, l⟩) : l.phase.lock = none := by
  have ends : Ends l.request r l.phase := sound.protocol.thread t _ ended
  exact ends.unlocked

theorem Held.step {D : Discipline Eff Ans World Local (Outcome Unit)} (sound : Sound env s c)
    (h : Held c) (hs : Step (pool env s) D c c') : Held c' := by
  cases hs with
  | start free starts ok => exact h.add free _
  | call running enabled alone ok => exact h.after sound running
  | @spawn t u e k l th running enabled child free ok =>
    apply (h.after sound running).add
    have away : u ≠ t := by
      rintro rfl
      rw [free] at running
      cases running
    exact (Function.update_of_ne away _ _).trans free
  | @finish t r l running =>
    intro lock u held
    obtain ⟨th, there, mine⟩ := h lock u held
    have away : u ≠ t := by
      rintro rfl
      rw [running] at there
      cases there
      cases (ended_unlocked sound running).symm.trans mine
    exact ⟨th, (Config.set_other _ _ away).trans there, mine⟩
  | crash ok =>
    intro lock u held
    cases held

/-- A lock is held exactly by the operation that has taken it and has not given it back. That
operation has calls to make, so none ends with a lock, be it with a result, an error or a
panic; and when nothing is under way all locks are free. -/
theorem locks_released {D : Discipline Eff Ans World Local (Outcome Unit)} {c₀ : Configuration}
    (started : Started c₀) (unheld : ∀ lock, c₀.world.holder lock = none)
    (run : Reach (pool env s) D c₀ c) :
    (∀ lock t, c.world.holder lock = some t ↔
      ∃ e k l, c.threads t = some ⟨.call e k, l⟩ ∧ l.phase.lock = some lock) ∧
    (∀ t r l, c.threads t = some ⟨.ret r, l⟩ → ∀ lock, c.world.holder lock ≠ some t) ∧
    (c.Quiet → ∀ lock, c.world.holder lock = none) := by
  have kept : Sound env s c ∧ Held c := by
    apply Reach.invariant _ _ (I := fun c => Sound env s c ∧ Held c) ?_ run
    · refine ⟨started.sound, fun lock t held => ?_⟩
      rw [unheld lock] at held
      cases held
    · rintro c c' ⟨sound, h⟩ hs
      exact ⟨sound.step hs, h.step sound hs⟩
  obtain ⟨sound, h⟩ := kept
  have working : ∀ lock t, c.world.holder lock = some t →
      ∃ e k l, c.threads t = some ⟨.call e k, l⟩ ∧ l.phase.lock = some lock := by
    intro lock t held
    obtain ⟨⟨prog, l⟩, there, mine⟩ := h lock t held
    cases prog with
    | ret r => cases (ended_unlocked sound there).symm.trans mine
    | call e k => exact ⟨e, k, l, there, mine⟩
  have ended : ∀ t r l, c.threads t = some ⟨.ret r, l⟩ → ∀ lock, c.world.holder lock ≠ some t := by
    intro t r l there lock held
    obtain ⟨e, k, l', running, -⟩ := working lock t held
    rw [there] at running
    cases running
  refine ⟨fun lock t => ⟨working lock t, ?_⟩, ended, ?_⟩
  · rintro ⟨e, k, l, there, mine⟩
    exact (sound.standing there).holds lock mine
  · intro quiet lock
    cases held : c.world.holder lock with
    | none => rfl
    | some t =>
      obtain ⟨e, k, l, there, -⟩ := working lock t held
      obtain ⟨r, same⟩ := quiet t _ there
      cases same

end Steps

/-- A renewal after its first three calls. -/
def renewing : Option Configuration :=
  playing (fun _ _ _ => true) [0, 0, 0] (requested sampleWorld [.renew 0 false "admin" ""])

/-- It has the lock of its certificate. -/
theorem locks_released_renewing : ∃ c e k l,
    Reach (pool sampleEnvironment sampleService) .any (requested sampleWorld []) c ∧
      c.world.holder 0 = some 0 ∧ c.threads 0 = some ⟨.call e k, l⟩ ∧ l.phase.lock = some 0 := by
  have played : renewing.map (fun c => c.world.holder 0) = some (some 0) := by decide +kernel
  obtain ⟨c, made, held⟩ := Option.map_eq_some_iff.mp played
  have begun : Reach (pool sampleEnvironment sampleService) .any (requested sampleWorld [])
      (requested sampleWorld [.renew 0 false "admin" ""]) :=
    requested_reach _ (fun _ _ => trivial) _ _ (by decide)
  have run := begun.trans (play_reach (fun _ _ _ _ => trivial) made)
  obtain ⟨e, k, l, there, mine⟩ :=
    ((locks_released (requested_started fun _ => rfl) (fun _ => rfl) run).1 0 0).mp held
  exact ⟨c, e, k, l, run, held, there, mine⟩

end LockRelease
