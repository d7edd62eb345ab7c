import CertMate.ClosedRuns
import CertMate.RenewalRetries
import CertMate.ScanPosts

/-!
# A renewal scan and its goroutines

`RunRenewalScan` starts a goroutine for each certificate that is due, lets at most
`MaxConcurrency` of them through its semaphore at a time and waits until all of
them are done. Beside any other operations, and beside other scans, it keeps to
the limit, leaves no goroutine behind and never gets stuck.
-/
namespace ScanProgress
open CertificateModel CallTrees ThreadPools ServiceWorld CertificateService ServiceProtocol
  ServicePool OperationCalls ScanPosts
open SqliteStore hiding exec

abbrev Noted := Config Eff Ans World (Local × Post) (Outcome Unit)

abbrev noted (env : Environment) (s : Service) :
    System Eff Ans World (Local × Post) (Outcome Unit) :=
  (pool env s).noting (fun th => Post.first th.seen.request) Post.note

/-- A scan has a limit of at least one. -/
def limited : Discipline Eff Ans World Local (Outcome Unit) where
  start _ th := ∀ policy, th.seen.request = .scan policy → 1 ≤ policy.maxConcurrency
  call _ _ _ := True
  crash _ := True

/-- The slots that are taken, against the threads that have one. -/
def semaphore (n : Nat) : Ledger World (Local × Post) where
  settled w := -((w.scans n).used : Int)
  owes x := if x.2.slot = some n then 1 else 0

/-- What the wait group counts, against the threads it counts. -/
def waitGroup (n : Nat) (id : Id) : Ledger World (Local × Post) where
  settled w := -((w.scans n).outstanding.count id : Int)
  owes x := if x.2.member = some (n, id) then 1 else 0

theorem semaphore_sign (n : Nat) (x : Local × Post) : 0 ≤ (semaphore n).owes x := by
  change (0 : Int) ≤ if _ then 1 else 0
  split <;> omega

theorem waitGroup_sign (n : Nat) (id : Id) (x : Local × Post) : 0 ≤ (waitGroup n id).owes x := by
  change (0 : Int) ≤ if _ then 1 else 0
  split <;> omega

/-- What is known of every thread by itself, and of the limits. -/
def standing : Assertion Eff Ans World (Local × Post) (Outcome Unit) where
  world := Within
  thread _ th w := th.seen.2.Placed w ∧ th.seen.2.Fits th.seen.1.request

abbrev Conforming (env : Environment) (s : Service) :
    Assertion Eff Ans World (Local × Post) (Outcome Unit) :=
  conforming (noted env s) (fun _ _ => True) (fun x e => x.2.allows e) fun _ x => x.2.Over

/-- What holds of every configuration. -/
structure Orderly (env : Environment) (s : Service) (c : Noted) : Prop where
  conforms : (Conforming env s).Holds c
  standing : standing.Holds c
  slots : ∀ n, (semaphore n).Even 0 c
  workers : ∀ n id, (waitGroup n id).Even 0 c
  owners : Exclusive (fun x n => x.2.own = some n) c

section Order
variable {env : Environment} {s : Service}

theorem noted_start {th : Thread Eff Ans (Local × Post) (Outcome Unit)}
    (starts : (noted env s).starts th) : ∃ request, Request.external request = true ∧
      th = (thread s request).beside fun th => Post.first th.seen.request := by
  obtain ⟨own, ⟨request, outside, rfl⟩, rfl⟩ := starts
  exact ⟨request, outside, rfl⟩

/-- Only a scan starts threads, its goroutines. -/
theorem noted_spawn {t : Nat} {e : Eff} {th : Thread Eff Ans (Local × Post) (Outcome Unit)}
    (born : (noted env s).spawn t e = some th) : ∃ scan certificate policy,
      e = .startWorker scan certificate policy ∧
        th = (thread s (.worker policy scan certificate)).beside
          fun th => Post.first th.seen.request := by
  cases e with
  | startWorker scan certificate policy =>
    cases born
    exact ⟨scan, certificate, policy, rfl, rfl⟩
  | _ => cases born

theorem thread_keeps (wired : s.engine = true) (request : Request) :
    Follows (fun _ _ => True) (fun (x : Local × Post) e => x.2.allows e) (noted env s).note
      (thread s request).prog ((thread s request).seen, Post.first request)
      fun _ x => x.2.Over :=
  follows_beside (programOf_keeps s wired request) _

theorem conforming_kept (wired : s.engine = true) :
    (Conforming env s).Stable (noted env s) limited.noting fun _ => True := by
  apply conforming_stable
  · intro t e w
    trivial
  · intro th starts
    obtain ⟨request, -, rfl⟩ := noted_start starts
    exact thread_keeps wired request
  · intro t e th born
    obtain ⟨scan, certificate, policy, -, rfl⟩ := noted_spawn born
    exact thread_keeps wired (.worker policy scan certificate)

theorem standing_kept : standing.Stable (noted env s) limited.noting fun c =>
    (Conforming env s).Holds c where
  own c t e k x conforms h running able ok := by
    have allowed := allowed_of_conforming conforms running
    obtain ⟨placed, fits⟩ := h.thread t _ running
    exact ⟨h.world.step able, placed.step allowed, Post.fits_note fits _ allowed⟩
  other c t e k x u th conforms h running able ok away there :=
    ⟨(h.thread u th there).1.frame t e, (h.thread u th there).2⟩
  start c t th conforms h free starts ok := by
    obtain ⟨request, outside, rfl⟩ := noted_start starts
    refine ⟨?_, Post.fits_first request⟩
    rcases Post.first_outside outside with apart | ⟨policy, rfl, opening⟩
    · change (Post.first request).Placed c.world
      rw [apart]
      exact Post.Placed.apart _
    · exact Post.Placed.opening _ (ok policy rfl)
  spawn c t e k x u child conforms h running born free ok := by
    obtain ⟨scan, certificate, policy, rfl, rfl⟩ := noted_spawn born
    have counted : x.2 = .counted policy.maxConcurrency scan certificate :=
      allowed_of_conforming conforms running
    have placed := (h.thread t _ running).1
    rw [counted] at placed
    refine ⟨⟨?_, ?_⟩, Post.fits_first _⟩
    · intro limit none
      cases none
    · intro limit n there
      cases there
      exact placed.2 _ _ rfl
  crash c conforms h ok n := Nat.le_refl 0

end Order

section Ledgers
variable {env : Environment} {s : Service}

theorem Orderly.allowed {c : Noted} (h : Orderly env s c) {t : Nat} {e : Eff}
    {k : Ans e → Operation (Outcome Unit)} {x : Local × Post}
    (running : c.threads t = some ⟨.call e k, x⟩) : x.2.allows e :=
  allowed_of_conforming h.conforms running

/-- The next scan has no slots taken and counts nobody. -/
theorem Orderly.fresh {c : Noted} (h : Orderly env s c) :
    (c.world.scans c.world.nextScan).used = 0 ∧
      ∀ id, (c.world.scans c.world.nextScan).outstanding.count id = 0 := by
  have early : ∀ t th limit, c.threads t = some th →
      th.seen.2.place ≠ some (limit, c.world.nextScan) := by
    intro t th limit there place
    have old := ((h.standing.thread t th there).1.2 _ _ place).1
    omega
  have none := (h.slots c.world.nextScan).settled_eq fun t th there => if_neg fun slot => by
    obtain ⟨limit, place⟩ := Post.place_of_slot slot
    exact early t th limit there place
  have nobody : ∀ id, (waitGroup c.world.nextScan id).settled c.world = 0 := fun id =>
    (h.workers c.world.nextScan id).settled_eq fun t th there => if_neg fun member => by
      obtain ⟨limit, place⟩ := Post.place_of_member member
      exact early t th limit there place
  constructor
  · simp only [semaphore] at none
    omega
  · intro id
    have zero := nobody id
    simp only [waitGroup] at zero
    omega

/-- A slot that is given back was taken. -/
theorem Orderly.taken {c : Noted} (h : Orderly env s c) {t scan : Nat}
    {th : Thread Eff Ans (Local × Post) (Outcome Unit)} (there : c.threads t = some th)
    (slot : th.seen.2.slot = some scan) : 1 ≤ (c.world.scans scan).used := by
  have owes : (semaphore scan).owes th.seen = 1 := if_pos slot
  have least := (h.slots scan).owed_le (semaphore_sign scan) there (by omega)
  simp only [semaphore] at least
  omega

/-- A goroutine that is done was counted. -/
theorem Orderly.counted {c : Noted} (h : Orderly env s c) {t scan : Nat} {certificate : Id}
    {th : Thread Eff Ans (Local × Post) (Outcome Unit)} (there : c.threads t = some th)
    (member : th.seen.2.member = some (scan, certificate)) :
    1 ≤ (c.world.scans scan).outstanding.count certificate := by
  have owes : (waitGroup scan certificate).owes th.seen = 1 := if_pos member
  have least := (h.workers scan certificate).owed_le (waitGroup_sign scan certificate) there (by omega)
  simp only [waitGroup] at least
  omega

theorem semaphore_handed (n : Nat) :
    (semaphore n).Handed (noted env s) limited.noting (Orderly env s) 0 where
  call c t e k x known running alone := by
    have allowed := known.allowed running
    obtain ⟨l, post⟩ := x
    have still : ¬ UsesSlots e → (semaphore n).settled (exec env t e c.world).2 +
        (semaphore n).owes ((noted env s).note (l, post) e (exec env t e c.world).1) =
          (semaphore n).settled c.world + (semaphore n).owes (l, post) := by
      intro unused
      simp only [semaphore, System.noting, exec_used unused, Post.slot_note allowed unused]
    cases e with
    | newScan capacity =>
      obtain rfl : post = .opening capacity := allowed
      have fresh := known.fresh.1
      simp only [semaphore, noted, pool, System.noting, exec, World.setScan, Post.note, Post.slot]
      by_cases same : n = c.world.nextScan
      · subst same
        simp [fresh]
      · simp [same]
    | acquireSlot scan =>
      obtain ⟨limit, certificate, rfl⟩ := allowed
      simp only [semaphore, noted, pool, System.noting, exec, World.setScan]
      split
      · simp [Post.note, Post.slot, World.tick]
      · by_cases same : scan = n
        · subst same
          simp [Post.note, Post.slot]
        · simp [Post.note, Post.slot, World.tick, same, Ne.symm same]
    | releaseSlot scan =>
      obtain ⟨limit, certificate, rfl⟩ := allowed
      have taken := known.taken running rfl
      simp only [semaphore, noted, pool, System.noting, exec, World.setScan, Post.note, Post.slot]
      by_cases same : scan = n
      · subst same
        simp
        omega
      · simp [same, Ne.symm same]
    | _ => exact still not_false
  spawn c t e k x th known running born := by
    obtain ⟨scan, certificate, policy, rfl, rfl⟩ := noted_spawn born
    have counted : x.2 = .counted policy.maxConcurrency scan certificate := known.allowed running
    obtain ⟨l, post⟩ := x
    subst counted
    simp [semaphore, noted, pool, System.noting, exec, Post.note, Post.slot, thread, Thread.beside,
      Post.first]
  starts th starts := by
    obtain ⟨request, outside, rfl⟩ := noted_start starts
    rcases Post.first_outside outside with apart | ⟨policy, rfl, -⟩
    · simp [semaphore, Thread.beside, thread, apart, Post.slot]
    · rfl
  finish c t a x known running := by
    have ended : x.2.Over := known.conforms.thread t _ running
    obtain ⟨l, post⟩ := x
    cases post <;> first | exact ended.elim | rfl
  restart w := rfl

theorem waitGroup_handed (n : Nat) (id : Id) :
    (waitGroup n id).Handed (noted env s) limited.noting (Orderly env s) 0 where
  call c t e k x known running alone := by
    have allowed := known.allowed running
    obtain ⟨l, post⟩ := x
    have still : ¬ Counts e → (waitGroup n id).settled (exec env t e c.world).2 +
        (waitGroup n id).owes ((noted env s).note (l, post) e (exec env t e c.world).1) =
          (waitGroup n id).settled c.world + (waitGroup n id).owes (l, post) := by
      intro unused
      simp only [waitGroup, System.noting, exec_outstanding unused, Post.member_note allowed unused]
    cases e with
    | newScan capacity =>
      obtain rfl : post = .opening capacity := allowed
      have fresh := known.fresh.2 id
      simp only [waitGroup, noted, pool, System.noting, exec, World.setScan, Post.note, Post.member]
      by_cases same : n = c.world.nextScan
      · subst same
        simp [fresh]
      · simp [same]
    | addWorker scan certificate =>
      obtain ⟨limit, rfl⟩ := allowed
      simp only [waitGroup, noted, pool, System.noting, exec, World.setScan, Post.note, Post.member]
      by_cases same : scan = n
      · subst same
        by_cases mine : certificate = id
        · subst mine
          simp
        · simp [mine]
      · simp [same, Ne.symm same]
    | workerDone scan certificate =>
      obtain ⟨limit, rfl⟩ := allowed
      have counted := known.counted running rfl
      simp only [waitGroup, noted, pool, System.noting, exec, World.setScan, Post.note, Post.member]
      by_cases same : scan = n
      · subst same
        by_cases mine : certificate = id
        · subst mine
          simp
          omega
        · simp [mine, List.count_erase_of_ne (Ne.symm mine)]
      · simp [same, Ne.symm same]
    | startWorker => cases alone
    | _ => exact still not_false
  spawn c t e k x th known running born := by
    obtain ⟨scan, certificate, policy, rfl, rfl⟩ := noted_spawn born
    have counted : x.2 = .counted policy.maxConcurrency scan certificate := known.allowed running
    obtain ⟨l, post⟩ := x
    subst counted
    simp [waitGroup, noted, pool, System.noting, exec, Post.note, Post.member, thread,
      Thread.beside, Post.first]
  starts th starts := by
    obtain ⟨request, outside, rfl⟩ := noted_start starts
    rcases Post.first_outside outside with apart | ⟨policy, rfl, -⟩
    · simp [waitGroup, Thread.beside, thread, apart, Post.member]
    · rfl
  finish c t a x known running := by
    have ended : x.2.Over := known.conforms.thread t _ running
    obtain ⟨l, post⟩ := x
    cases post <;> first | exact ended.elim | rfl
  restart w := rfl

theorem own_kept : Exclusive.Kept (fun (x : Local × Post) n => x.2.own = some n) (noted env s)
    limited.noting (Orderly env s) where
  call c t e k x n known running ok got := by
    have allowed := known.allowed running
    rcases Post.own_note allowed got with same | ⟨capacity, rfl, opening⟩
    · exact Or.inl same
    · right
      obtain ⟨l, post⟩ := x
      subst opening
      cases got
      intro u th there own
      obtain ⟨limit, place⟩ := Post.place_of_own own
      exact Nat.lt_irrefl _ ((known.standing.thread u th there).1.2 _ _ place).1
  start th n starts := by
    obtain ⟨request, outside, rfl⟩ := noted_start starts
    rcases Post.first_outside outside with apart | ⟨policy, rfl, -⟩
    · simp [Thread.beside, thread, apart, Post.own]
    · simp [Thread.beside, thread, Post.first, Post.own]
  spawn t e th n born := by
    obtain ⟨scan, certificate, policy, rfl, rfl⟩ := noted_spawn born
    simp [Thread.beside, thread, Post.first, Post.own]

theorem Orderly.step (wired : s.engine = true) {c c' : Noted} (h : Orderly env s c)
    (hs : Step (noted env s) limited.noting c c') : Orderly env s c' where
  conforms := (conforming_kept wired).step trivial h.conforms hs
  standing := standing_kept.step h.conforms h.standing hs
  slots n := (semaphore_handed n).step h (h.slots n) hs
  workers n id := (waitGroup_handed n id).step h (h.workers n id) hs
  owners := own_kept.step h h.owners hs

end Ledgers

/-- The next call of the thread is to wait for the scan's wait group, or for a slot of
its semaphore. -/
def Waiting {S : Type} (c : Config Eff Ans World S (Outcome Unit)) (t scan : Nat) : Prop :=
  ∃ e k x, c.threads t = some ⟨.call e k, x⟩ ∧ (e = .waitWorkers scan ∨ e = .acquireSlot scan)

/-- The thread is a goroutine of the scan. -/
def WorksFor (c : Configuration) (t scan : Nat) : Prop :=
  ∃ th policy certificate, c.threads t = some th ∧
    th.seen.request = .worker policy scan certificate

section Progress
variable {env : Environment} {s : Service} {d : Noted}

theorem Orderly.able {t : Nat} {th : Thread Eff Ans (Local × Post) (Outcome Unit)}
    (h : Orderly env s d) (there : d.threads t = some th)
    (free : ∀ e, th.seen.2.allows e → enabled env e d.world = true) : Able
    (pool env s) d.plain t := by
  obtain ⟨prog, x⟩ := th
  refine ⟨⟨prog, x.1⟩, by simp [there, Thread.plain], ?_⟩
  cases prog with
  | ret a => trivial
  | call e k => exact free e (h.allowed there)

/-- Only the wait group and the semaphore block. -/
theorem enabled_of {e : Eff} {w : World} (wait : ∀ scan, e ≠ .waitWorkers scan)
    (slot : ∀ scan, e ≠ .acquireSlot scan) : enabled env e w = true := by
  cases e with
  | waitWorkers scan => exact absurd rfl (wait scan)
  | acquireSlot scan => exact absurd rfl (slot scan)
  | _ => rfl

/-- Whoever is counted works for the scan, but for the one that the scan is about to start. -/
theorem Orderly.worksFor {t scan : Nat} {certificate : Id}
    {th : Thread Eff Ans (Local × Post) (Outcome Unit)} (h : Orderly env s d)
    (there : d.threads t = some th) (member : th.seen.2.member = some (scan, certificate))
    (started : th.seen.2.own = none) : WorksFor d.plain t scan := by
  obtain ⟨-, fits⟩ := h.standing.thread t th there
  obtain ⟨prog, l, post⟩ := th
  cases post with
  | queued | seated | leaving =>
    cases member
    obtain ⟨policy, request, -⟩ := fits
    exact ⟨⟨prog, l⟩, policy, certificate, by simp [there, Thread.plain], request⟩
  | counted => cases started
  | _ => cases member

/-- Where slots are taken, one of those who have them can go on. -/
theorem Orderly.seated_able (h : Orderly env s d) {scan : Nat}
    (taken : 1 ≤ (d.world.scans scan).used) :
    ∃ u, WorksFor d.plain u scan ∧ Able (pool env s) d.plain u := by
  have short : (semaphore scan).settled d.world ≠ 0 := by
    simp only [semaphore]
    omega
  obtain ⟨u, th, there, owes⟩ := (h.slots scan).debtor short
  have slot : th.seen.2.slot = some scan := by
    by_contra none
    exact owes (if_neg none)
  obtain ⟨prog, l, post⟩ := th
  cases post with
  | seated limit n certificate =>
    cases slot
    refine ⟨u, h.worksFor there rfl rfl, h.able there fun e allowed => ?_⟩
    apply enabled_of
    · rintro n rfl
      obtain ⟨_, same⟩ := allowed
      cases same
    · rintro n rfl
      obtain ⟨_, _, same⟩ := allowed
      cases same
  | _ => cases slot

/-- A goroutine that waits for a slot can go on, or somebody who has one can. -/
theorem Orderly.queued_progress (h : Orderly env s d) {t limit scan : Nat} {certificate : Id}
    {th : Thread Eff Ans (Local × Post) (Outcome Unit)} (there : d.threads t = some th)
    (post : th.seen.2 = .queued limit scan certificate) :
    Able (pool env s) d.plain t ∨
      ∃ u, WorksFor d.plain u scan ∧ Able (pool env s) d.plain u := by
  by_cases free : enabled env (.acquireSlot scan) d.world = true
  · left
    apply h.able there
    intro e allowed
    rw [post] at allowed
    rw [Post.queued_allows allowed]
    exact free
  · right
    apply h.seated_able
    have placed := (h.standing.thread t th there).1
    rw [post] at placed
    obtain ⟨-, capacity, positive⟩ := placed.2 limit scan rfl
    simp only [enabled, Bool.or_eq_true, decide_eq_true_eq, not_or] at free
    omega

/-- Where a scan waits for its goroutines, one of them can go on. -/
theorem Orderly.waiting_progress (h : Orderly env s d) {t limit scan : Nat}
    {th : Thread Eff Ans (Local × Post) (Outcome Unit)} (there : d.threads t = some th)
    (post : th.seen.2 = .looping limit scan)
    (some_left : enabled env (.waitWorkers scan) d.world = false) :
    ∃ u, WorksFor d.plain u scan ∧ Able (pool env s) d.plain u := by
  obtain ⟨certificate, member⟩ : ∃ certificate, certificate ∈ (d.world.scans scan).outstanding := by
    apply List.exists_mem_of_ne_nil
    intro none
    simp [enabled, none] at some_left
  have short : (waitGroup scan certificate).settled d.world ≠ 0 := by
    have counted := List.count_pos_iff.mpr member
    simp only [waitGroup]
    omega
  obtain ⟨u, th', there', owes⟩ := (h.workers scan certificate).debtor short
  have counted : th'.seen.2.member = some (scan, certificate) := by
    by_contra none
    exact owes (if_neg none)
  obtain ⟨prog, l, post'⟩ := th'
  cases post' with
  | counted limit' n certificate' =>
    cases counted
    have own : th.seen.2.own = some scan := by
      rw [post]
      rfl
    cases h.owners t u _ _ scan there there' own rfl
    rw [there] at there'
    cases there'
    cases post
  | queued limit' n certificate' =>
    cases counted
    rcases h.queued_progress there' rfl with able | other
    · exact ⟨u, h.worksFor there' rfl rfl, able⟩
    · exact other
  | seated limit' n certificate' =>
    cases counted
    have slot : 1 ≤ (d.world.scans scan).used := h.taken there' rfl
    exact h.seated_able slot
  | leaving limit' n certificate' =>
    cases counted
    refine ⟨u, h.worksFor there' rfl rfl, h.able there' fun e allowed => ?_⟩
    apply enabled_of
    · rintro n rfl
      obtain ⟨_, same⟩ := allowed
      cases same
    · rintro n rfl
      obtain ⟨_, _, same⟩ := allowed
      cases same
  | _ => cases counted

theorem Orderly.progress (h : Orderly env s d) {t : Nat}
    {th : Thread Eff Ans (Local × Post) (Outcome Unit)} (there : d.threads t = some th) :
    Able (pool env s) d.plain t ∨ ∃ scan, Waiting d.plain t scan ∧
      ∃ u, WorksFor d.plain u scan ∧ Able (pool env s) d.plain u := by
  obtain ⟨prog, l, post⟩ := th
  cases prog with
  | ret a => exact Or.inl ⟨⟨.ret a, l⟩, by simp [there, Thread.plain], trivial⟩
  | call e k =>
    by_cases free : enabled env e d.world = true
    · exact Or.inl ⟨⟨.call e k, l⟩, by simp [there, Thread.plain], free⟩
    · have here : d.plain.threads t = some ⟨.call e k, l⟩ := by simp [there, Thread.plain]
      have allowed := h.allowed there
      cases e with
      | waitWorkers scan =>
        obtain ⟨limit, rfl⟩ := allowed
        exact Or.inr ⟨scan, ⟨_, k, l, here, Or.inl rfl⟩,
          h.waiting_progress there rfl (Bool.eq_false_iff.mpr free)⟩
      | acquireSlot scan =>
        obtain ⟨limit, certificate, rfl⟩ := allowed
        rcases h.queued_progress there rfl with able | other
        · exact Or.inl able
        · exact Or.inr ⟨scan, ⟨_, k, l, here, Or.inr rfl⟩, other⟩
      | _ => exact absurd rfl free

end Progress

/-- After the wait nobody is counted. -/
def joined : Assertion Eff Ans World (Local × Post) (Outcome Unit) where
  world _ := True
  thread _ th w := ∀ limit scan, th.seen.2 = .gathered limit scan → (w.scans scan).outstanding = []

section Join
variable {env : Environment} {s : Service}

/-- Only the scan itself adds to its wait group. -/
theorem outstanding_other {c : Noted} (h : Orderly env s c) {t u limit scan : Nat} {e : Eff}
    {k : Ans e → Operation (Outcome Unit)} {x : Local × Post}
    {th : Thread Eff Ans (Local × Post) (Outcome Unit)}
    (running : c.threads t = some ⟨.call e k, x⟩) (away : u ≠ t) (there : c.threads u = some th)
    (post : th.seen.2 = .gathered limit scan) (none : (c.world.scans scan).outstanding = []) :
    ((exec env t e c.world).2.scans scan).outstanding = [] := by
  have allowed := h.allowed running
  have still : ¬ Counts e → ((exec env t e c.world).2.scans scan).outstanding = [] := by
    intro unused
    rw [exec_outstanding unused, none]
  have placed := (h.standing.thread u th there).1
  rw [post] at placed
  have old := (placed.2 limit scan rfl).1
  have own : th.seen.2.own = some scan := by
    rw [post]
    rfl
  cases e with
  | newScan capacity =>
    have other : scan ≠ c.world.nextScan := by omega
    simp [exec, World.setScan, other, none]
  | addWorker n certificate =>
    obtain ⟨limit', looping⟩ := allowed
    have other : scan ≠ n := by
      rintro rfl
      apply away
      apply h.owners u t th _ scan there running own
      rw [looping]
      rfl
    simp [exec, World.setScan, other, none]
  | workerDone n certificate =>
    by_cases same : scan = n
    · subst same
      simp [exec, World.setScan, none]
    · simp [exec, World.setScan, same, none]
  | startWorker => exact none
  | _ => exact still not_false

theorem joined_kept : joined.Stable (noted env s) limited.noting (Orderly env s) where
  own c t e k x known h running able ok := by
    refine ⟨trivial, fun limit scan gathered => ?_⟩
    rcases Post.note_gathered (known.allowed running) gathered with rfl | ⟨before, unused⟩
    · exact List.isEmpty_iff.mp able
    · change ((exec env t e c.world).2.scans scan).outstanding = []
      rw [exec_outstanding unused]
      exact h.thread t _ running limit scan before
  other c t e k x u th known h running able ok away there limit scan gathered :=
    outstanding_other known running away there gathered (h.thread u th there limit scan gathered)
  start c t th known h free starts ok limit scan gathered := by
    obtain ⟨request, outside, rfl⟩ := noted_start starts
    rcases Post.first_outside outside with apart | ⟨policy, rfl, -⟩
    · cases apart.symm.trans gathered
    · cases gathered
  spawn c t e k x u child known h running born free ok limit scan gathered := by
    obtain ⟨n, certificate, policy, rfl, rfl⟩ := noted_spawn born
    cases gathered
  crash c known h ok := trivial

end Join

/-- A process that has just been started runs no scan. -/
structure Launched (c : Configuration) : Prop where
  threads : ∀ t, c.threads t = none
  scans : ∀ n, (c.world.scans n).used = 0 ∧ (c.world.scans n).outstanding = []

section Results
variable {env : Environment} {s : Service}

theorem Launched.orderly {d : Noted} (h : Launched d.plain) (empty : ∀ t, d.threads t = none) :
    Orderly env s d ∧ joined.Holds d := by
  have nothing : ∀ {P : Prop} {t th}, d.threads t = some th → P := by
    intro P t th there
    rw [empty t] at there
    cases there
  refine ⟨⟨⟨trivial, fun t th => nothing⟩, ⟨?_, fun t th => nothing⟩, ?_, ?_, ?_⟩,
    trivial, fun t th => nothing⟩
  · intro n
    have none := (h.scans n).1
    simp only [plain_world] at none
    omega
  · intro n
    have none := (h.scans n).1
    exact ⟨0, fun t _ => empty t, by simpa [semaphore, Config.total] using none⟩
  · intro n id
    have none := (h.scans n).2
    simp only [plain_world] at none
    exact ⟨0, fun t _ => empty t, by simp [waitGroup, Config.total, none]⟩
  · intro t u th th' n there
    exact nothing there

/-- Every run is one of threads whose posts are in order. -/
theorem exists_orderly (wired : s.engine = true) {c₀ c : Configuration} (launched : Launched c₀)
    (run : Reach (pool env s) limited c₀ c) :
    ∃ d : Noted, d.plain = c ∧ Orderly env s d ∧ joined.Holds d := by
  obtain ⟨d₀, rfl, empty⟩ := exists_plain (T := Post) launched.threads
  obtain ⟨d, run, same⟩ :=
    Reach.noting (fun th => Post.first th.seen.request) Post.note run
  refine ⟨d, same, ?_⟩
  apply Reach.invariant (noted env s) limited.noting (I := fun d => Orderly env s d ∧ joined.Holds d)
    ?_ run (launched.orderly empty)
  rintro d d' ⟨orderly, holds⟩ hs
  exact ⟨orderly.step wired hs, joined_kept.step orderly holds hs⟩

theorem tiered : Tiered (noted env s) (Orderly env s) fun x => x.2.tier where
  call c t e k x known running := by
    have allowed := known.allowed running
    change (x.2.note e ((noted env s).exec t e c.world).1).tier ≤ x.2.tier
    generalize ((noted env s).exec t e c.world).1 = r
    have moved := Post.move_note allowed r
    obtain ⟨l, before⟩ := x
    generalize before.note e r = post at moved ⊢
    cases moved <;> exact Nat.le_refl _
  spawn c t e k x th known running born := by
    obtain ⟨scan, certificate, policy, rfl, rfl⟩ := noted_spawn born
    have counted : x.2 = .counted policy.maxConcurrency scan certificate := known.allowed running
    rw [counted]
    exact Nat.zero_lt_one

end Results

/-- The thread has had its slot of the scan and has not given it back: its next call is
neither for a slot nor the last one. -/
def Seated (c : Configuration) (t scan : Nat) : Prop :=
  ∃ policy certificate e k phase,
    c.threads t = some ⟨.call e k, ⟨.worker policy scan certificate, phase⟩⟩ ∧
      e ≠ .acquireSlot scan ∧ e ≠ .workerDone scan certificate

section Results
variable {env : Environment} {s : Service} {d : Noted}

/-- The post of a goroutine, with the limit of its scan. -/
theorem Orderly.worker_post (h : Orderly env s d) {t scan : Nat} {policy : Policy}
    {certificate : Id}
    {th : Thread Eff Ans (Local × Post) (Outcome Unit)} (there : d.threads t = some th)
    (request : th.seen.1.request = .worker policy scan certificate) :
    th.seen.2.place = some (policy.maxConcurrency, scan) ∧
      (th.seen.2.member = some (scan, certificate) ∨
        th.seen.2 = .left policy.maxConcurrency scan certificate) := by
  obtain ⟨-, fits⟩ := h.standing.thread t th there
  obtain ⟨prog, l, post⟩ := th
  change l.request = _ at request
  cases post with
  | apart => exact absurd (request ▸ fits : Ordinary (.worker policy scan certificate)) not_false
  | queued | seated | leaving =>
    obtain ⟨_, same, rfl⟩ := fits
    cases request.symm.trans same
    exact ⟨rfl, Or.inl rfl⟩
  | left =>
    obtain ⟨_, same, rfl⟩ := fits
    cases request.symm.trans same
    exact ⟨rfl, Or.inr rfl⟩
  | opening | looping | counted | gathered =>
    obtain ⟨_, same, -⟩ := fits
    cases request.symm.trans same

theorem Orderly.seated_slot (h : Orderly env s d) {t scan : Nat} (seated : Seated d.plain t scan) :
    ∃ th, d.threads t = some th ∧ th.seen.2.slot = some scan := by
  obtain ⟨policy, certificate, e, k, phase, there, takes, ends⟩ := seated
  obtain ⟨post, there⟩ := plain_some there
  refine ⟨_, there, ?_⟩
  have allowed := h.allowed there
  obtain ⟨-, fits⟩ := h.standing.thread t _ there
  cases post with
  | apart => exact absurd fits not_false
  | queued =>
    obtain ⟨_, same, -⟩ := fits
    cases same
    exact absurd (Post.queued_allows allowed) takes
  | seated =>
    obtain ⟨_, same, -⟩ := fits
    cases same
    rfl
  | leaving =>
    obtain ⟨_, same, -⟩ := fits
    cases same
    exact absurd (Post.leaving_allows allowed) ends
  | left => exact absurd allowed Post.left_allows
  | opening | looping | counted | gathered =>
    obtain ⟨_, same, -⟩ := fits
    cases same

theorem Orderly.empty_idle (h : Orderly env s d) (empty : ∀ t, d.threads t = none) (scan : Nat) :
    (d.world.scans scan).used = 0 ∧ (d.world.scans scan).outstanding = [] := by
  have nobody : ∀ t th {P : Prop}, d.threads t = some th → P := by
    intro t th P there
    rw [empty t] at there
    cases there
  constructor
  · have none := (h.slots scan).settled_eq fun t th there => nobody t th there
    simp only [semaphore] at none
    omega
  · apply List.eq_nil_iff_forall_not_mem.mpr
    intro certificate member
    have counted := List.count_pos_iff.mpr member
    have none := (h.workers scan certificate).settled_eq fun t th there => nobody t th there
    simp only [waitGroup] at none
    omega

/-- However operations and scans are interleaved, and after any number of restarts, each
thread can go on or waits for a goroutine of its scan that can. Once nothing is added any
more the threads come to their ends in finitely many steps, and then no slot is taken and
no wait group counts anybody. -/
theorem scans_never_stuck (wired : s.engine = true) {c₀ c : Configuration} (launched : Launched c₀)
    (run : Reach (pool env s) limited c₀ c) :
    (∀ t th, c.threads t = some th → Able (pool env s) c t ∨ ∃ scan, Waiting c t scan ∧
      ∃ u, WorksFor c u scan ∧ Able (pool env s) c u) ∧
    Acc (fun c' c => Step (pool env s) .closed c c') c ∧
    ((∀ c', ¬ Step (pool env s) .closed c c') → (∀ t, c.threads t = none) ∧
      ∀ scan, (c.world.scans scan).used = 0 ∧ (c.world.scans scan).outstanding = []) := by
  obtain ⟨d, rfl, orderly, -⟩ := exists_orderly wired launched run
  have finite : d.plain.Finite := by
    refine Reach.invariant _ _ (fun c c' finite hs => hs.finite _ _ finite) run ?_
    exact ⟨0, fun t _ => launched.threads t⟩
  have progress : ∀ t th, d.plain.threads t = some th → Able (pool env s) d.plain t ∨
      ∃ scan, Waiting d.plain t scan ∧ ∃ u, WorksFor d.plain u scan ∧ Able (pool env s) d.plain u := by
    intro t th there
    obtain ⟨post, there⟩ := plain_some there
    exact orderly.progress there
  refine ⟨progress, ?_, ?_⟩
  · apply acc_plain (D := .closed)
    apply tiered.acc ?_ orderly
    · obtain ⟨n, none⟩ := finite
      exact ⟨n, fun t above => plain_none (none t above)⟩
    · intro c c' known hs
      exact known.step wired (closed_step (fun _ _ _ => trivial) hs)
  · intro stuck
    have halted : ∀ t, ¬ Able (pool env s) d.plain t := by
      intro t able
      obtain ⟨c', hs⟩ := able.step finite
      exact stuck c' hs
    have empty : ∀ t, d.plain.threads t = none := by
      intro t
      by_contra some
      obtain ⟨th, there⟩ := Option.ne_none_iff_exists'.mp some
      rcases progress t th there with able | ⟨scan, -, u, -, able⟩
      · exact halted t able
      · exact halted u able
    exact ⟨empty, orderly.empty_idle fun t => plain_none (empty t)⟩

/-- Never more goroutines of a scan are between taking a slot and giving it back than its
policy's limit. And where a scan gathers the errors, all its goroutines have ended. -/
theorem scan_limited_and_joined (wired : s.engine = true) {c₀ c : Configuration}
    (launched : Launched c₀) (run : Reach (pool env s) limited c₀ c) (scan : Nat) :
    (∀ (seated : Finset Nat), (∀ t ∈ seated, Seated c t scan) →
      ∀ t th policy certificate, c.threads t = some th →
        th.seen.request = .worker policy scan certificate → seated.card ≤ policy.maxConcurrency) ∧
    ∀ t k l, c.threads t = some ⟨.call (.reportedErrors scan) k, l⟩ →
      ∀ u th policy certificate, c.threads u = some th →
        th.seen.request = .worker policy scan certificate → ∃ r, th.prog = .ret r := by
  obtain ⟨d, rfl, orderly, joined⟩ := exists_orderly wired launched run
  constructor
  · intro seated each t th policy certificate there request
    obtain ⟨post, there⟩ := plain_some there
    obtain ⟨place, -⟩ := orderly.worker_post there request
    have capacity := ((orderly.standing.thread t _ there).1.2 _ _ place).2.1
    have within := orderly.standing.world scan
    have owe : ∀ t ∈ seated, ∃ th, d.threads t = some th ∧ 1 ≤ (semaphore scan).owes th.seen := by
      intro t member
      obtain ⟨th, there, slot⟩ := orderly.seated_slot (each t member)
      have one : (semaphore scan).owes th.seen = 1 := if_pos slot
      exact ⟨th, there, by omega⟩
    have few := (orderly.slots scan).card_le (semaphore_sign scan) seated owe
    simp only [semaphore] at few
    omega
  · intro t k l here u th policy certificate there request
    obtain ⟨post, here⟩ := plain_some here
    obtain ⟨limit, gathered⟩ := orderly.allowed here
    have none := joined.thread t _ here limit scan gathered
    obtain ⟨post', there⟩ := plain_some there
    rcases (orderly.worker_post there request).2 with member | left
    · have counted := orderly.counted there member
      rw [none] at counted
      simp at counted
    · obtain ⟨prog, own⟩ := th
      cases prog with
      | ret r => exact ⟨r, rfl⟩
      | call e k =>
        have allowed := orderly.allowed there
        change Post.allows post' e at allowed
        change post' = _ at left
        rw [left] at allowed
        exact absurd allowed Post.left_allows

end Results

open RenewalRetries (dueWorld retryPolicy scanning reading working selected)

/-- The scan has started the goroutine, which has made `m` calls. -/
def underway (m : Nat) : Option Configuration :=
  (((pool sampleEnvironment sampleService).play reading (List.replicate 4 0) scanning).bind
    (selected sampleEnvironment)).bind
      ((pool sampleEnvironment sampleService).play working (List.replicate m 1))

theorem underway_reach {m : Nat} {c : Configuration} (h : underway m = some c) :
    Reach (pool sampleEnvironment sampleService) limited (requested dueWorld []) c := by
  have begun : Reach (pool sampleEnvironment sampleService) limited (requested dueWorld [])
      scanning := by
    refine .single (.start rfl ⟨.scan retryPolicy, rfl, rfl⟩ ?_)
    rintro policy ⟨⟩
    exact Nat.le_refl 1
  obtain ⟨c', selects, works⟩ := Option.bind_eq_some_iff.mp h
  obtain ⟨c₁, reads, selects⟩ := Option.bind_eq_some_iff.mp selects
  have free := play_bounded (requested_free dueWorld [.scan retryPolicy]) reads 1 (Nat.le_refl 1)
  refine (begun.trans (play_reach (fun _ _ _ _ => trivial) reads)).trans ?_
  unfold selected at selects
  split at selects
  · rename_i policy k l there
    split at selects
    · cases selects
      exact .head (.spawn there rfl rfl free trivial) (play_reach (fun _ _ _ _ => trivial) works)
    · cases selects
  · cases selects

/-- The next calls of the scan and of the goroutine. -/
def stage (c : Configuration) : Bool :=
  match c.threads 0, c.threads 1 with
  | some ⟨.call (.waitWorkers 0) _, _⟩, some ⟨.call (.store (.certificate 0)) _, ⟨request, _⟩⟩ =>
    !(c.world.scans 0).outstanding.isEmpty && decide (request = .worker retryPolicy 0 0)
  | _, _ => false

theorem sample_launched : Launched (requested dueWorld []) := ⟨fun _ => rfl, fun _ => ⟨rfl, rfl⟩⟩

theorem underway_stage : ∃ c, underway 1 = some c ∧ stage c = true := by
  have played : (underway 1).map stage = some true := by decide +kernel
  exact Option.map_eq_some_iff.mp played

/-- The scan waits for its goroutine. -/
theorem scans_never_stuck_waiting : ∃ c : Configuration,
    Reach (pool sampleEnvironment sampleService) limited (requested dueWorld []) c ∧
      ¬ Able (pool sampleEnvironment sampleService) c 0 ∧
      ∃ u scan, WorksFor c u scan ∧ Able (pool sampleEnvironment sampleService) c u := by
  obtain ⟨c, underway, stage⟩ := underway_stage
  have run := underway_reach underway
  have progress := (scans_never_stuck rfl sample_launched run).1
  have stalled : ∃ th, c.threads 0 = some th ∧
      ¬ Able (pool sampleEnvironment sampleService) c 0 := by
    unfold ScanProgress.stage at stage
    split at stage
    · rename_i k l k' request phase here there
      refine ⟨_, here, ?_⟩
      rintro ⟨th, same, able⟩
      rw [here] at same
      cases same
      change (c.world.scans 0).outstanding.isEmpty = true at able
      simp [able] at stage
    · cases stage
  obtain ⟨th, here, blocked⟩ := stalled
  rcases progress 0 th here with able | ⟨scan, -, u, works, able⟩
  · exact absurd able blocked
  · exact ⟨c, run, blocked, u, scan, works, able⟩

/-- The goroutine has given its notice, and the scan is about to join the errors. -/
def gathered : Option Configuration :=
  (underway 33).bind ((pool sampleEnvironment sampleService).play (fun _ _ _ => true) [0])

def gathering (c : Configuration) : Bool :=
  match c.threads 0, c.threads 1 with
  | some ⟨.call (.reportedErrors 0) _, _⟩, some ⟨_, ⟨request, _⟩⟩ =>
    decide (request = .worker retryPolicy 0 0)
  | _, _ => false

theorem gathered_gathering : ∃ c, gathered = some c ∧ gathering c = true := by
  have played : gathered.map gathering = some true := by decide +kernel
  exact Option.map_eq_some_iff.mp played

/-- The goroutine has the only slot, and it has ended when the scan joins the errors. -/
theorem scan_limited_and_joined_one :
    (∃ c : Configuration,
      Reach (pool sampleEnvironment sampleService) limited (requested dueWorld []) c ∧
        Seated c 1 0 ∧ ({1} : Finset Nat).card ≤ retryPolicy.maxConcurrency) ∧
    ∃ (c : Configuration) (k : List Error → Operation (Outcome Unit)) (l : Local)
      (th : Thread Eff Ans Local (Outcome Unit)),
      Reach (pool sampleEnvironment sampleService) limited (requested dueWorld []) c ∧
        c.threads 0 = some ⟨.call (.reportedErrors 0) k, l⟩ ∧ c.threads 1 = some th ∧
        th.seen.request = .worker retryPolicy 0 0 ∧ ∃ r, th.prog = .ret r := by
  refine ⟨?_, ?_⟩
  case refine_2 =>
    obtain ⟨c, gathered, gathers⟩ := gathered_gathering
    obtain ⟨c', underway, waits⟩ := Option.bind_eq_some_iff.mp gathered
    have run := (underway_reach underway).trans (play_reach (fun _ _ _ _ => trivial) waits)
    unfold gathering at gathers
    split at gathers
    · rename_i k l prog request phase here there
      obtain rfl : request = .worker retryPolicy 0 0 := of_decide_eq_true gathers
      exact ⟨c, k, l, _, run, here, there, rfl,
        (scan_limited_and_joined rfl sample_launched run 0).2 0 k l here 1 _ retryPolicy 0 there rfl⟩
    · cases gathers
  obtain ⟨c, underway, stage⟩ := underway_stage
  have run := underway_reach underway
  unfold ScanProgress.stage at stage
  split at stage
  · rename_i k l k' request phase here there
    have work : request = .worker retryPolicy 0 0 := by
      simpa using (Bool.and_eq_true_iff.mp stage).2
    subst work
    have seated : Seated c 1 0 := by
      refine ⟨retryPolicy, 0, _, k', phase, there, ?_, ?_⟩
      · intro same
        cases same
      · intro same
        cases same
    refine ⟨c, run, seated, ?_⟩
    apply (scan_limited_and_joined rfl sample_launched run 0).1 {1} ?_ 1 _ retryPolicy 0 there rfl
    intro t member
    rwa [Finset.mem_singleton.mp member]
  · cases stage

end ScanProgress
