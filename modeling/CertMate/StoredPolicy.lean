import CertMate.SchedulerRuns

/-!
# The policy in memory and the stored one

`Update` writes the policy row and then, in a step of its own, the policy in
memory. The two agree at rest as long as no update overtakes a later writer
between these steps.
-/
namespace StoredPolicy
open CallTrees ThreadPools SchedulerController SchedulerRuns

instance (p q : Policy) : Decidable (SamePolicy p q) := inferInstanceAs (Decidable (_ = _))

/-- The update that has written last has yet to put its policy in memory. -/
def Pending (c : Configuration) : Prop :=
  ∃ u th policy, c.threads u = some th ∧ th.seen.phase.unswapped = some (policy, c.world.writes)

/-- An update puts in memory what is stored, or the update that has stored it is
still to come. -/
def inOrder : Discipline Eff Ans World Local (Except String Unit) where
  start _ _ := True
  call c _ e :=
    match e with
    | .swap _ _ policy => SamePolicy policy c.world.stored ∨ Pending c
    | _ => True
  crash _ := False

/-- The calls that write a policy. -/
def Writes : Eff → Prop
  | .updateRenewalPolicy _ | .swap _ _ _ => True
  | _ => False

section Steps
variable {env : Environment} {t : Nat} {l : Local} {e : Eff} {w : World}

theorem exec_stored (env : Environment) (t : Nat) (e : Eff) (w : World)
    (reads : ∀ policy, e ≠ .updateRenewalPolicy policy) :
    (exec env t e w).2.stored = w.stored ∧ (exec env t e w).2.writes = w.writes := by
  cases e with
  | updateRenewalPolicy policy => exact absurd rfl (reads policy)
  | renewalPolicy | awaitJobs =>
    simp only [exec]
    split <;> exact ⟨rfl, rfl⟩
  | _ => exact ⟨rfl, rfl⟩

/-- A write of the policy row fails, or is the last one. -/
theorem update_cases (env : Environment) (t : Nat) (w : World) (policy : Policy) :
    ((∃ err, (exec env t (.updateRenewalPolicy policy) w).1 = .error err) ∧
        (exec env t (.updateRenewalPolicy policy) w).2.stored = w.stored ∧
        (exec env t (.updateRenewalPolicy policy) w).2.writes = w.writes) ∨
      ((exec env t (.updateRenewalPolicy policy) w).1 = .ok (w.writes + 1) ∧
        SamePolicy policy (exec env t (.updateRenewalPolicy policy) w).2.stored ∧
        (exec env t (.updateRenewalPolicy policy) w).2.writes = w.writes + 1) := by
  cases failing : env.fails w.calls with
  | some err =>
    refine Or.inl ?_
    simp only [exec, failing]
    exact ⟨⟨_, rfl⟩, rfl, rfl⟩
  | none =>
    refine Or.inr ?_
    simp only [exec, failing]
    exact ⟨trivial, rfl, trivial⟩

theorem advance_unswapped (allowed : allows l e) (reads : ¬ Writes e) (r : Ans e) :
    (advance l.phase e r).unswapped = l.phase.unswapped := by
  have retire_unswapped : ∀ old : Option Nat, (retire old).unswapped = none := by
    intro old
    cases old <;> rfl
  cases e with
  | newCron spec =>
    rw [show l.phase = .idle from allowed]
    rfl
  | updateRenewalPolicy | swap => exact absurd trivial reads
  | startCron i =>
    obtain ⟨policy, version, phase⟩ := allowed
    rw [phase]
    rfl
  | takeCron =>
    rw [show l.phase = .idle from allowed]
    exact retire_unswapped r
  | stopCron i =>
    rw [show l.phase = .retiring i from allowed]
    rfl
  | _ => rfl

end Steps

/-- Whoever has written last has written what is stored. -/
def versions : Assertion Eff Ans World Local (Except String Unit) where
  world _ := True
  thread _ th w := ∀ policy version, th.seen.phase.unswapped = some (policy, version) →
    version ≤ w.writes ∧ (version = w.writes → SamePolicy policy w.stored)

section Runs
variable {env : Environment}

theorem versions_own {t : Nat} {l : Local} {e : Eff} {w : World} (allowed : allows l e)
    (before : ∀ policy version, l.phase.unswapped = some (policy, version) →
      version ≤ w.writes ∧ (version = w.writes → SamePolicy policy w.stored))
    (policy : Policy) (version : Nat)
    (after : (advance l.phase e (exec env t e w).1).unswapped = some (policy, version)) :
    version ≤ (exec env t e w).2.writes ∧
      (version = (exec env t e w).2.writes → SamePolicy policy (exec env t e w).2.stored) := by
  by_cases writes : Writes e
  · cases e with
    | updateRenewalPolicy new =>
      obtain ⟨i, phase⟩ := allowed
      rcases update_cases env t w new with
        ⟨⟨err, answer⟩, stored, count⟩ | ⟨answer, same, count⟩
      · rw [answer, phase] at after
        cases after
      · rw [answer, phase] at after
        cases after
        exact ⟨Nat.le_of_eq count.symm, fun _ => same⟩
    | swap i entryID new =>
      change (retire w.cron).unswapped = _ at after
      cases field : w.cron with
      | none => rw [field] at after; cases after
      | some old => rw [field] at after; cases after
    | _ => exact writes.elim
  · obtain ⟨stored, count⟩ := exec_stored env t e w
      fun policy h => writes (h ▸ trivial)
    rw [advance_unswapped allowed writes] at after
    rw [stored, count]
    exact before policy version after

theorem versions_other {t : Nat} {e : Eff} {w : World} {policy : Policy} {version : Nat}
    (before : version ≤ w.writes ∧ (version = w.writes → SamePolicy policy w.stored)) :
    version ≤ (exec env t e w).2.writes ∧
      (version = (exec env t e w).2.writes → SamePolicy policy (exec env t e w).2.stored) := by
  obtain ⟨bound, last⟩ := before
  by_cases update : ∃ new, e = .updateRenewalPolicy new
  · obtain ⟨new, rfl⟩ := update
    rcases update_cases env t w new with
      ⟨-, stored, count⟩ | ⟨-, -, count⟩
    · rw [stored, count]
      exact ⟨bound, last⟩
    · rw [count]
      exact ⟨by omega, fun h => by omega⟩
  · obtain ⟨stored, count⟩ := exec_stored env t e w
      fun new h => update ⟨new, h⟩
    rw [stored, count]
    exact ⟨bound, last⟩

theorem versions_stable {D : Discipline Eff Ans World Local (Except String Unit)} :
    versions.Stable (pool env) D (Protocol env).Holds where
  own _ t _ _ _ known holds running _ _ :=
    ⟨trivial, versions_own (allowed_of_conforming known running) (holds.thread t _ running)⟩
  other _ _ _ _ _ u _ _ holds _ _ _ _ there policy version unswapped :=
    versions_other (holds.thread u _ there policy version unswapped)
  start _ _ _ _ _ _ started _ _ _ unswapped := by
    obtain ⟨request, rfl⟩ := started
    cases unswapped
  spawn _ _ _ _ _ _ _ _ _ _ h _ _ := nomatch h
  crash _ _ _ _ := trivial

end Runs

/-- What is stored is in memory, or the update that has written it owes it. -/
def memory : Account World Local Nat where
  settled w version := version = w.writes → SamePolicy w.policy w.stored
  owes l version := ∃ policy, l.phase.unswapped = some (policy, version)

section Account
variable {env : Environment}

theorem memory_call {c : Configuration} {t : Nat} {e : Eff}
    {k : Ans e → Operation (Except String Unit)}
    {l : Local} {version : Nat} (known : (Protocol env).Holds c) (sound : versions.Holds c)
    (running : c.threads t = some ⟨.call e k, l⟩) (ok : inOrder.call c t e)
    (before : memory.settled c.world version ∨ memory.owes l version) :
    memory.settled (exec env t e c.world).2 version ∨
      memory.owes (note l e (exec env t e c.world).1) version ∨
      ∃ u th, u ≠ t ∧ c.threads u = some th ∧ memory.owes th.seen version := by
  have allowed := allowed_of_conforming known running
  by_cases writes : Writes e
  · cases e with
    | updateRenewalPolicy new =>
      obtain ⟨i, phase⟩ := allowed
      rcases update_cases env t c.world new with
        ⟨⟨err, answer⟩, stored, count⟩ | ⟨answer, -, count⟩
      · rcases before with settled | ⟨policy, unswapped⟩
        · refine Or.inl fun last => ?_
          rw [exec_policy, stored]
          exact settled (last.trans count)
        · rw [phase] at unswapped
          cases unswapped
      · by_cases last : version = c.world.writes + 1
        · refine Or.inr (Or.inl ⟨new, ?_⟩)
          change (advance l.phase _ _).unswapped = _
          rw [answer, phase, last]
          rfl
        · exact Or.inl fun h => absurd (h.trans count) last
    | swap i entryID new =>
      obtain ⟨written, own, phase, same⟩ := allowed
      by_cases last : version = c.world.writes
      · subst last
        rcases ok with stored | ⟨u, th, policy, there, unswapped⟩
        · exact Or.inl fun _ => stored
        · by_cases mine : u = t
          · subst mine
            cases running.symm.trans there
            have current := (sound.thread u _ running policy _ unswapped).2 rfl
            rw [phase] at unswapped
            cases unswapped
            exact Or.inl fun _ => same.trans current
          · exact Or.inr (Or.inr ⟨u, th, mine, there, policy, unswapped⟩)
      · exact Or.inl fun h => absurd h last
    | _ => exact writes.elim
  · obtain ⟨stored, count⟩ := exec_stored env t e c.world
      fun policy h => writes (h ▸ trivial)
    have policy : (exec env t e c.world).2.policy = c.world.policy := by
      rw [exec_policy]
      cases e <;> first | rfl | exact absurd trivial writes
    rcases before with settled | ⟨owed, unswapped⟩
    · refine Or.inl fun last => ?_
      rw [policy, stored]
      exact settled (last.trans count)
    · refine Or.inr (Or.inl ⟨owed, ?_⟩)
      exact (advance_unswapped allowed writes _).trans unswapped

theorem memory_kept : memory.Kept (pool env) inOrder
    fun c => (Protocol env).Holds c ∧ versions.Holds c where
  call _ _ _ _ _ _ known running ok before := memory_call known.1 known.2 running ok before
  finish c t r l version known running := by
    rintro ⟨policy, unswapped⟩
    have ends : Ends r l := known.1.thread t _ running
    cases ends.swapped.symm.trans unswapped
  crash _ _ _ h := h.elim

end Account

/-- With nothing under way the policy in memory is the stored one, which is what
the next start loads. -/
def Agrees (env : Environment) (c : Configuration) : Prop :=
  c.Quiet → SamePolicy c.world.policy c.world.stored ∧
    ∀ t loaded, (exec env t .renewalPolicy c.world).1 = .ok loaded →
      SamePolicy c.world.policy loaded

/-- After a `Start`, updates that keep to the order of their writes leave the
stored policy in memory. -/
theorem memory_is_stored {env : Environment} {w : World} (fresh : Fresh w)
    (ok : (run (exec env 0) (start env) w).1 = .ok ()) {c : Configuration}
    (run : Reach (pool env) inOrder (afterStart env w) c) : Agrees env c := by
  have begun : Begun w (afterStart env w).world := by
    rcases start_cases env fresh with ⟨-, begun⟩ | ⟨⟨err, failed⟩, -⟩
    · exact begun
    · cases ok.symm.trans failed
  have known : (Protocol env).Holds (afterStart env w) ∧ versions.Holds (afterStart env w) :=
    ⟨⟨trivial, fun _ _ h => nomatch h⟩, trivial, fun _ _ h => nomatch h⟩
  have balanced : memory.Balanced (afterStart env w) := by
    intro version
    refine Or.inl fun _ => ?_
    rw [begun.policy, begun.stored]
    rfl
  obtain ⟨⟨sound, current⟩, closes⟩ := Reach.invariant _ _
    (I := fun c => ((Protocol env).Holds c ∧ versions.Holds c) ∧ memory.Balanced c)
    (fun c c' ⟨known, holds⟩ hs => ⟨⟨protocol_stable.step trivial known.1 hs,
      versions_stable.step known.1 known.2 hs⟩, memory_kept.step known holds hs⟩)
    run ⟨known, balanced⟩
  intro quiet
  have same := memory_kept.settled_of_quiet ⟨sound, current⟩ closes quiet _ rfl
  refine ⟨same, fun t loaded answer => ?_⟩
  simp only [exec] at answer
  split at answer
  · cases answer
  · cases answer
    exact same

def couple : Configuration := beside [.update samplePolicy, .update updatedPolicy]

/-- Of the threads 0 and 1 the one that has written last has yet to swap. -/
def pendingOf (c : Configuration) : Bool :=
  [0, 1].any fun u => (c.threads u).any fun th =>
    (th.seen.phase.unswapped.map Prod.snd) = some c.world.writes

theorem pending_of {c : Configuration} (h : pendingOf c = true) : Pending c := by
  obtain ⟨u, -, there⟩ := List.any_eq_true.mp h
  obtain ⟨th, running, unswapped⟩ := (Option.any_eq_true _ _).mp there
  obtain ⟨⟨policy, version⟩, same, last⟩ := Option.map_eq_some_iff.mp (of_decide_eq_true unswapped)
  cases last
  exact ⟨u, th, policy, running, same⟩

def keepsOrder (c : Configuration) (_ : Nat) (e : Eff) : Bool :=
  match e with
  | .swap _ _ policy => decide (SamePolicy policy c.world.stored) || pendingOf c
  | _ => true

theorem inOrder_of {c : Configuration} {t : Nat} {e : Eff} (h : keepsOrder c t e = true) :
    inOrder.call c t e := by
  cases e with
  | swap i entryID policy =>
    rcases Bool.or_eq_true_iff.mp h with same | pending
    · exact Or.inl (of_decide_eq_true same)
    · exact Or.inr (pending_of pending)
  | _ => trivial

/-- The first to write swaps while the second still has to. -/
theorem memory_is_stored_second :
    ∃ c : Configuration, c.Quiet ∧ c.world.writes = 2 ∧ Agrees sampleEnvironment c := by
  have played : ((pool sampleEnvironment).play keepsOrder [1, 0, 1, 0, 1, 1, 1, 1, 0, 0, 0, 0]
      couple).map (fun c => (c.resting 2, c.world.writes)) = some (true, 2) := by
    decide +kernel
  obtain ⟨c, schedule, seen⟩ := Option.map_eq_some_iff.mp played
  obtain ⟨ended, writes⟩ := Prod.mk.inj seen
  have run := play_reach (D := inOrder) (fun _ _ _ => inOrder_of) schedule
  exact ⟨c, quiet_of_resting (play_bounded (beside_free [_, _]) schedule) ended, writes,
    memory_is_stored sampleWorld_fresh rfl ((beside_reach (fun _ _ => trivial) _).trans run)⟩

/-- The first to write swaps last: the policy of the second is stored, that of
the first is in memory. -/
theorem update_overtaken : ¬ ∀ (env : Environment) (w : World) (c : Configuration), Fresh w →
    (run (exec env 0) (start env) w).1 = .ok () →
    Reach (pool env) .uninterrupted (afterStart env w) c → Agrees env c := by
  intro claim
  have played : ((pool sampleEnvironment).play (fun _ _ _ => true)
      [1, 1, 0, 0, 0, 0, 0, 0, 1, 1, 1, 1] couple).map (fun c =>
        (c.resting 2, decide (SamePolicy c.world.policy c.world.stored))) =
          some (true, false) := by
    decide +kernel
  obtain ⟨c, schedule, seen⟩ := Option.map_eq_some_iff.mp played
  obtain ⟨ended, differs⟩ := Prod.mk.inj seen
  have run : Reach (pool sampleEnvironment) .uninterrupted couple c :=
    play_reach (fun _ _ _ _ => trivial) schedule
  have agrees := claim sampleEnvironment sampleWorld c sampleWorld_fresh rfl
    ((beside_reach (fun _ _ => trivial) _).trans run)
  have quiet : c.Quiet := quiet_of_resting (play_bounded (beside_free [_, _]) schedule) ended
  exact of_decide_eq_false differs (agrees quiet).1

end StoredPolicy
