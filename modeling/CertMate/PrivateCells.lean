import CertMate.ThreadLedgers

/-!
# Cells of one's own

A store of cells by key, and calls that look at one cell at most. A thread makes a cell
under a key that nobody has, works in this cell alone, and takes it away. What the other
threads do in the meantime is then nothing to it: it ends as if all of its calls had been
made at one moment.
-/
namespace PrivateCells
open CallTrees ThreadPools

/-- `counts` has the number of calls that each thread has made. -/
structure Store (Key Cell : Type) where
  cells : Key → Option Cell
  counts : Nat → Nat

/-- The key a call is about, and what the call makes of the cell there. Both may depend
on the thread and on how many calls it has made. -/
structure Device (E : Type) (R : E → Type) (Key Cell : Type) where
  key : Nat → Nat → E → Option Key
  effect : Nat → Nat → (e : E) → Option Cell → R e × Option Cell

/-- What a note has to say about the cell of its thread: the key while the thread has one,
whether it has made one before, and whether it was kept from taking it away. -/
structure Manners (E : Type) (R : E → Type) (S Key : Type) where
  makes : E → Bool
  place : E → Option Key
  held : S → Option Key
  tried : S → Bool
  lost : S → Bool
  note : S → (e : E) → R e → S

section
variable {E : Type} {R : E → Type} {S α Key Cell : Type}

def Store.tick (w : Store Key Cell) (t : Nat) : Store Key Cell :=
  { w with counts := Function.update w.counts t (w.counts t + 1) }

@[simp] theorem tick_cells (w : Store Key Cell) (t : Nat) : (w.tick t).cells = w.cells := rfl

@[simp] theorem tick_counts (w : Store Key Cell) (t : Nat) :
    (w.tick t).counts t = w.counts t + 1 := Function.update_self _ _ _

theorem tick_counts_of_ne (w : Store Key Cell) {t u : Nat} (away : u ≠ t) :
    (w.tick t).counts u = w.counts u := Function.update_of_ne away _ _

section Stores
variable [DecidableEq Key]

def Store.put (w : Store Key Cell) (key : Key) (cell : Option Cell) : Store Key Cell :=
  { w with cells := Function.update w.cells key cell }

@[simp] theorem put_counts (w : Store Key Cell) (key : Key) (cell : Option Cell) :
    (w.put key cell).counts = w.counts := rfl

@[simp] theorem put_cells (w : Store Key Cell) (key : Key) (cell : Option Cell) :
    (w.put key cell).cells key = cell := Function.update_self _ _ _

theorem put_cells_of_ne (w : Store Key Cell) {key other : Key} (cell : Option Cell)
    (away : other ≠ key) : (w.put key cell).cells other = w.cells other :=
  Function.update_of_ne away _ _

def Device.exec (dev : Device E R Key Cell) (t : Nat) (e : E) (w : Store Key Cell) :
    R e × Store Key Cell :=
  match dev.key t (w.counts t) e with
  | none => ((dev.effect t (w.counts t) e none).1, w.tick t)
  | some key =>
    let r := dev.effect t (w.counts t) e (w.cells key)
    (r.1, (w.put key r.2).tick t)

variable {dev : Device E R Key Cell} {t : Nat} {e : E} {w : Store Key Cell}

theorem exec_none (nowhere : dev.key t (w.counts t) e = none) :
    dev.exec t e w = ((dev.effect t (w.counts t) e none).1, w.tick t) := by
  simp [Device.exec, nowhere]

theorem exec_some {key : Key} (here : dev.key t (w.counts t) e = some key) :
    dev.exec t e w = ((dev.effect t (w.counts t) e (w.cells key)).1,
      (w.put key (dev.effect t (w.counts t) e (w.cells key)).2).tick t) := by
  simp [Device.exec, here]

theorem exec_counts : (dev.exec t e w).2.counts t = w.counts t + 1 := by
  cases there : dev.key t (w.counts t) e with
  | none => simp [exec_none there]
  | some key => simp [exec_some there]

theorem exec_counts_of_ne {u : Nat} (away : u ≠ t) : (dev.exec t e w).2.counts u = w.counts u := by
  cases there : dev.key t (w.counts t) e with
  | none => simp [exec_none there, tick_counts_of_ne _ away]
  | some key => simp [exec_some there, tick_counts_of_ne _ away]

theorem exec_cells_of_ne {other : Key} (away : dev.key t (w.counts t) e ≠ some other) :
    (dev.exec t e w).2.cells other = w.cells other := by
  cases there : dev.key t (w.counts t) e with
  | none => simp [exec_none there]
  | some key =>
    have apart : other ≠ key := by
      rintro rfl
      exact away there
    simp [exec_some there, put_cells_of_ne _ _ apart]

/-- A call without a cell answers the same whatever the cells are, and leads to any of them. -/
theorem exec_before {v : Store Key Cell} (nowhere : dev.key t (w.counts t) e = none)
    (counts : v.counts t = w.counts t + 1) :
    ∃ before : Store Key Cell, before.cells = v.cells ∧ before.counts t = w.counts t ∧
      dev.exec t e before = ((dev.exec t e w).1, v) := by
  let before : Store Key Cell := { v with counts := Function.update v.counts t (w.counts t) }
  have fewer : before.counts t = w.counts t := Function.update_self _ _ _
  have after : before.tick t = v := by simp [Store.tick, before, ← counts]
  have still : dev.key t (before.counts t) e = none := by rw [fewer, nowhere]
  refine ⟨before, rfl, fewer, ?_⟩
  rw [exec_none still, exec_none nowhere, after, fewer]

end Stores

/-- A thread makes one cell, and looks at no other than its own. -/
def Manners.allows (m : Manners E R S Key) (s : S) (e : E) : Prop :=
  if m.makes e then m.tried s = false else ∀ key, m.place e = some key → m.held s = some key

/-- What a device does when it is used with manners: it makes a cell only where there is
none, and the cells of the threads are `Good` as long as they are there. -/
structure Manners.Suits (m : Manners E R S Key) (dev : Device E R Key Cell)
    (Good : Cell → Prop) : Prop where
  placed : ∀ t n e, m.makes e = false → dev.key t n e = m.place e
  made : ∀ t n e key cell s, m.makes e = true → dev.key t n e = some key →
    (m.held (m.note s e (dev.effect t n e cell).1) = m.held s ∧ (dev.effect t n e cell).2 = cell) ∨
      (cell = none ∧ m.held (m.note s e (dev.effect t n e cell).1) = some key ∧
        ∃ new, (dev.effect t n e cell).2 = some new ∧ Good new)
  used : ∀ t n e key cell s, m.makes e = false → m.place e = some key → m.held s = some key →
    Good cell →
    (m.held (m.note s e (dev.effect t n e (some cell)).1) = some key ∧
        ∃ new, (dev.effect t n e (some cell)).2 = some new ∧ Good new) ∨
      (m.held (m.note s e (dev.effect t n e (some cell)).1) = none ∧
        (dev.effect t n e (some cell)).2 = none)
  keyed : ∀ t n e, m.makes e = true → dev.key t n e ≠ none
  idle : ∀ s e r, m.makes e = false → m.place e = none → m.held (m.note s e r) = m.held s
  tries : ∀ s e r, m.tried (m.note s e r) = (m.tried s || m.makes e)

/-- A kill leaves the cells as they are. -/
def pool [DecidableEq Key] (dev : Device E R Key Cell) (m : Manners E R S Key)
    (starts : Thread E R S α → Prop) : System E R (Store Key Cell) S α where
  exec := dev.exec
  enabled _ _ _ := true
  note := m.note
  spawn _ _ := none
  starts := starts
  restart w := w

/-- A new thread has no cell. It keeps to its manners, and when it ends it has none either,
unless it has lost it. -/
structure Manners.Newcomer (m : Manners E R S Key) (th : Thread E R S α) : Prop where
  untried : m.tried th.seen = false
  nothing : m.held th.seen = none
  keeps : Follows (fun _ _ => True) m.allows m.note th.prog th.seen
    fun _ s => m.held s = none ∨ m.lost s = true

section Runs
variable {dev : Device E R Key Cell} {m : Manners E R S Key} {Good : Cell → Prop}
  {starts : Thread E R S α → Prop}
  {D : Discipline E R (Store Key Cell) S α}

/-- What was there at the start is still there, and a thread has its cell. -/
def standing (m : Manners E R S Key) (Good : Cell → Prop) (start : Key → Option Cell) :
    Assertion E R (Store Key Cell) S α where
  world w := ∀ key, start key ≠ none → w.cells key = start key
  thread _ th w :=
    Follows (fun _ _ => True) m.allows m.note th.prog th.seen
        (fun _ s => m.held s = none ∨ m.lost s = true) ∧
      (m.tried th.seen = false → m.held th.seen = none) ∧
      ∀ key, m.held th.seen = some key →
        start key = none ∧ ∃ cell, w.cells key = some cell ∧ Good cell

/-- A thread has the cell under the key. -/
def Manners.Has (m : Manners E R S Key) (s : S) (key : Key) : Prop := m.held s = some key

/-- What is known of every configuration. -/
structure Known (m : Manners E R S Key) (Good : Cell → Prop) (start : Key → Option Cell)
    (c : Config E R (Store Key Cell) S α) : Prop where
  standing : (standing m Good start).Holds c
  exclusive : Exclusive m.Has c

variable {start : Key → Option Cell} {c : Config E R (Store Key Cell) S α} {t : Nat} {e : E}
  {k : R e → Prog E R α} {s : S}

theorem Known.allowed (known : Known m Good start c) (running : c.threads t = some ⟨.call e k, s⟩) :
    m.allows s e := (known.standing.thread t _ running).1.1

/-- A thread that has not made its cell makes calls without one. -/
theorem Known.nowhere (known : Known m Good start c) (running : c.threads t = some ⟨.call e k, s⟩)
    (untried : m.tried s = false) (plain : m.makes e = false) : m.place e = none := by
  have nothing : m.held s = none := (known.standing.thread t _ running).2.1 untried
  have allowed := known.allowed running
  simp only [Manners.allows, plain, Bool.false_eq_true, if_false] at allowed
  cases place : m.place e with
  | none => rfl
  | some key =>
    have held := nothing.symm.trans (allowed key place)
    cases held

theorem known_start (none : ∀ t, c.threads t = none) : Known m Good c.world.cells c where
  standing := ⟨fun _ _ => rfl, fun t th there => by cases (none t).symm.trans there⟩
  exclusive t u th th' key there := by cases (none t).symm.trans there

/-- The key of a call is free, or it is the one of the thread. -/
theorem Known.key (known : Known m Good start c) (suits : m.Suits dev Good)
    (running : c.threads t = some ⟨.call e k, s⟩) {key : Key} {n : Nat}
    (here : dev.key t n e = some key) :
    (m.makes e = true ∧ m.tried s = false) ∨
      (m.makes e = false ∧ m.place e = some key ∧ m.held s = some key) := by
  have allowed := known.allowed running
  unfold Manners.allows at allowed
  by_cases makes : m.makes e = true
  · exact Or.inl ⟨makes, by simpa [makes] using allowed⟩
  · have plain : m.makes e = false := by simpa using makes
    have place : m.place e = some key := (suits.placed t n e plain).symm.trans here
    simp only [plain, Bool.false_eq_true, if_false] at allowed
    exact Or.inr ⟨plain, place, allowed key place⟩

variable [DecidableEq Key]

/-- A call leaves the cells of the other threads alone. -/
theorem Known.frame (known : Known m Good start c) (suits : m.Suits dev Good)
    (running : c.threads t = some ⟨.call e k, s⟩) {u : Nat} {th : Thread E R S α} (away : u ≠ t)
    (there : c.threads u = some th) {key : Key} (has : m.held th.seen = some key) :
    (dev.exec t e c.world).2.cells key = c.world.cells key := by
  by_cases here : dev.key t (c.world.counts t) e = some key
  · obtain ⟨-, -, mine⟩ := known.standing.thread u th there
    obtain ⟨-, cell, full, -⟩ := mine key has
    rcases known.key suits running here with ⟨makes, -⟩ | ⟨-, -, held⟩
    · rw [exec_some here, full]
      rcases suits.made t _ e key (some cell) s makes here with ⟨-, same⟩ | ⟨empty, -⟩
      · simp [same]
      · cases empty
    · exact absurd (known.exclusive u t th _ key there running has held) away
  · exact exec_cells_of_ne here

/-- What the call makes of the cell of its own thread. -/
theorem Known.own (known : Known m Good start c) (suits : m.Suits dev Good)
    (running : c.threads t = some ⟨.call e k, s⟩) {key : Key}
    (has : m.held (m.note s e (dev.exec t e c.world).1) = some key) :
    start key = none ∧ (∃ cell, (dev.exec t e c.world).2.cells key = some cell ∧ Good cell) ∧
      (m.held s = some key ∨ c.world.cells key = none) := by
  obtain ⟨-, fresh, mine⟩ := known.standing.thread t _ running
  cases here : dev.key t (c.world.counts t) e with
  | none =>
    have plain : m.makes e = false := by
      by_contra makes
      exact suits.keyed t _ e (by simpa using makes) here
    have nowhere : m.place e = none := (suits.placed t _ e plain).symm.trans here
    rw [suits.idle s e _ plain nowhere] at has
    obtain ⟨free, cell, full, good⟩ := mine key has
    rw [exec_none here]
    exact ⟨free, ⟨cell, full, good⟩, Or.inl has⟩
  | some key' =>
    rw [exec_some here] at has ⊢
    rcases known.key suits running here with ⟨makes, untried⟩ | ⟨plain, place, held⟩
    · rcases suits.made t _ e key' (c.world.cells key') s makes here with
        ⟨same, -⟩ | ⟨empty, new, cell, full, good⟩
      · rw [same] at has
        cases (fresh untried).symm.trans has
      · rw [new] at has
        cases has
        have free : start key = none := by
          by_contra there
          exact there ((known.standing.world key there).symm.trans empty)
        exact ⟨free, ⟨cell, by simp [full], good⟩, Or.inr empty⟩
    · obtain ⟨free, cell, full, good⟩ := mine key' held
      rw [full] at has ⊢
      rcases suits.used t _ e key' cell s plain place held good with
        ⟨still, new, made, good'⟩ | ⟨gone, -⟩
      · rw [still] at has
        cases has
        exact ⟨free, ⟨new, by simp [made], good'⟩, Or.inl held⟩
      · rw [gone] at has
        cases has

theorem Known.start_kept (known : Known m Good start c) (suits : m.Suits dev Good)
    (running : c.threads t = some ⟨.call e k, s⟩) {key : Key} (there : start key ≠ none) :
    (dev.exec t e c.world).2.cells key = start key := by
  have before := known.standing.world key there
  by_cases here : dev.key t (c.world.counts t) e = some key
  · rcases known.key suits running here with ⟨makes, -⟩ | ⟨-, -, held⟩
    · simp only [exec_some here, tick_cells, put_cells]
      rcases suits.made t _ e key (c.world.cells key) s makes here with ⟨-, same⟩ | ⟨empty, -⟩
      · exact same.trans before
      · exact absurd (before.symm.trans empty) there
    · obtain ⟨-, -, mine⟩ := known.standing.thread t _ running
      exact absurd (mine key held).1 there
  · rw [exec_cells_of_ne here, before]

theorem standing_stable (suits : m.Suits dev Good) (new : ∀ th, starts th → m.Newcomer th)
    (start : Key → Option Cell) :
    (standing m Good start).Stable (pool dev m starts) D (Known m Good start) where
  own c t e k s known _ running _ _ := by
    obtain ⟨follows, fresh, mine⟩ := known.standing.thread t _ running
    refine ⟨fun key there => known.start_kept suits running there, follows.2 _ trivial, ?_, ?_⟩
    · intro untried
      have tries := suits.tries s e (dev.exec t e c.world).1
      change m.tried (m.note s e (dev.exec t e c.world).1) = false at untried
      rw [untried] at tries
      have both := Bool.or_eq_false_iff.mp tries.symm
      cases place : m.place e with
      | none => exact (suits.idle s e _ both.2 place).trans (fresh both.1)
      | some key =>
        have allowed := known.allowed running
        simp only [Manners.allows, both.2, Bool.false_eq_true, if_false] at allowed
        have held := (fresh both.1).symm.trans (allowed key place)
        cases held
    · intro key has
      obtain ⟨free, full, -⟩ := known.own suits running has
      exact ⟨free, full⟩
  other c t e k s u th known _ running _ _ away there := by
    obtain ⟨follows, fresh, mine⟩ := known.standing.thread u th there
    refine ⟨follows, fresh, ?_⟩
    intro key has
    have same := known.frame suits running away there has
    obtain ⟨free, cell, full, good⟩ := mine key has
    exact ⟨free, cell, same.trans full, good⟩
  start c t th _ _ _ started _ := by
    obtain ⟨untried, nothing, keeps⟩ := new th started
    refine ⟨keeps, fun _ => nothing, ?_⟩
    intro key has
    rw [nothing] at has
    cases has
  spawn c t e k s u child _ _ _ born _ _ := by cases born
  crash c known _ _ := known.standing.world

theorem exclusive_kept (suits : m.Suits dev Good) (new : ∀ th, starts th → m.Newcomer th) :
    Exclusive.Kept m.Has (pool dev m starts) D (Known m Good start) where
  call c t e k s key known running _ has := by
    obtain ⟨-, -, mine | empty⟩ := known.own suits running has
    · exact Or.inl mine
    · right
      intro u th there theirs
      obtain ⟨-, -, full⟩ := known.standing.thread u th there
      obtain ⟨-, cell, full, -⟩ := full key theirs
      rw [empty] at full
      cases full
  start th key started has := by
    rw [Manners.Has, (new th started).nothing] at has
    cases has
  spawn t e th key born := by cases born

theorem Known.step (suits : m.Suits dev Good) (new : ∀ th, starts th → m.Newcomer th)
    {c' : Config E R (Store Key Cell) S α} (known : Known m Good start c)
    (hs : Step (pool dev m starts) D c c') : Known m Good start c' :=
  ⟨(standing_stable suits new start).step known known.standing hs,
    (exclusive_kept suits new).step known known.exclusive hs⟩

/-- In every run from a start without threads. -/
theorem known_reach (suits : m.Suits dev Good) (new : ∀ th, starts th → m.Newcomer th)
    {c₀ : Config E R (Store Key Cell) S α} (none : ∀ t, c₀.threads t = none)
    (h : Reach (pool dev m starts) D c₀ c) : Known m Good c₀.world.cells c :=
  h.invariant _ _ (fun _ _ known hs => known.step suits new hs) (known_start none)

/-- The calls that a thread has made so far, made without the others: until it has made its
cell this is possible from any cells, and from then on from the cells of some state of the
run. -/
def replay (dev : Device E R Key Cell) (m : Manners E R S Key) (text : S → Prog E R α)
    (moment : Store Key Cell → Prop) : Assertion E R (Store Key Cell) S α where
  world _ := True
  thread t th w :=
    (m.tried th.seen = false ∧ ∀ v, v.counts t = w.counts t →
      ∃ w₀, w₀.cells = v.cells ∧ w₀.counts t ≤ v.counts t ∧
        run (dev.exec t) (text th.seen) w₀ = run (dev.exec t) th.prog v) ∨
    (m.tried th.seen = true ∧ ∃ now w₀ v, moment now ∧ w₀.cells = now.cells ∧
      w₀.counts t ≤ now.counts t ∧ now.counts t ≤ w.counts t ∧ v.counts t = w.counts t ∧
      (∀ key, m.held th.seen = some key → v.cells key = w.cells key) ∧
      run (dev.exec t) (text th.seen) w₀ = run (dev.exec t) th.prog v)

/-- A call that makes no cell answers the same in two states in which the thread has made as
many calls and has the same cell, and they stay alike. -/
theorem Known.alike (known : Known m Good start c) (suits : m.Suits dev Good)
    (running : c.threads t = some ⟨.call e k, s⟩) (plain : m.makes e = false)
    {v : Store Key Cell} (counts : v.counts t = c.world.counts t)
    (cells : ∀ key, m.held s = some key → v.cells key = c.world.cells key) :
    (dev.exec t e v).1 = (dev.exec t e c.world).1 ∧
      ∀ key, m.held (m.note s e (dev.exec t e c.world).1) = some key →
        (dev.exec t e v).2.cells key = (dev.exec t e c.world).2.cells key := by
  cases here : dev.key t (c.world.counts t) e with
  | none =>
    have nowhere : m.place e = none := (suits.placed t _ e plain).symm.trans here
    have there : dev.key t (v.counts t) e = none := by rw [counts, here]
    rw [exec_none here, exec_none there, counts]
    refine ⟨rfl, fun key has => ?_⟩
    rw [suits.idle s e _ plain nowhere] at has
    exact cells key has
  | some own =>
    have there : dev.key t (v.counts t) e = some own := by rw [counts, here]
    rcases known.key suits running here with ⟨makes, -⟩ | ⟨-, place, held⟩
    · rw [plain] at makes
      cases makes
    · have same := cells own held
      rw [exec_some here, exec_some there, counts, same]
      refine ⟨rfl, fun key has => ?_⟩
      by_cases this : key = own
      · rw [this, tick_cells, tick_cells, put_cells, put_cells]
      · obtain ⟨-, -, mine⟩ := known.standing.thread t _ running
        obtain ⟨-, cell, full, good⟩ := mine own held
        rw [full] at has
        rcases suits.used t _ e own cell s plain place held good with ⟨still, -⟩ | ⟨gone, -⟩
        · rw [still] at has
          cases has
          exact absurd rfl this
        · rw [gone] at has
          cases has

theorem replay_stable (suits : m.Suits dev Good) {text : S → Prog E R α}
    (text_note : ∀ s e r, text (m.note s e r) = text s)
    (fresh : ∀ th, starts th → m.tried th.seen = false ∧ text th.seen = th.prog)
    (moment : Store Key Cell → Prop) :
    (replay dev m text moment).Stable (pool dev m starts) D fun c =>
      Known m Good start c ∧ moment c.world where
  own c t e k s known h running _ _ := by
    obtain ⟨known, now⟩ := known
    refine ⟨trivial, ?_⟩
    have tries := suits.tries s e (dev.exec t e c.world).1
    have same := text_note s e (dev.exec t e c.world).1
    have counted : (dev.exec t e c.world).2.counts t = c.world.counts t + 1 := exec_counts
    simp only [replay, pool, same, tries]
    by_cases makes : m.makes e = true
    · -- The cell is made here and now.
      have allowed := known.allowed running
      simp only [Manners.allows, makes, if_true] at allowed
      rcases h.thread t _ running with ⟨-, anywhere⟩ | ⟨tried, -⟩
      · obtain ⟨w₀, cells, fewer, whole⟩ := anywhere c.world rfl
        refine Or.inr ⟨by simp [makes], c.world, w₀, (dev.exec t e c.world).2, now, cells, fewer,
          ?_, rfl, fun _ _ => rfl, whole⟩
        omega
      · rw [allowed] at tried
        cases tried
    · have plain : m.makes e = false := by simpa using makes
      rcases h.thread t _ running with ⟨untried, anywhere⟩ | ⟨tried, there⟩
      · left
        change m.tried s = false at untried
        refine ⟨by simp [untried, plain], fun v counts => ?_⟩
        have nowhere := known.nowhere running untried plain
        have key := (suits.placed t (c.world.counts t) e plain).trans nowhere
        obtain ⟨before, cells', counts', made⟩ := exec_before key (counts.trans counted)
        obtain ⟨w₀, cells, fewer, whole⟩ := anywhere before counts'
        refine ⟨w₀, cells.trans cells', by omega, whole.trans ?_⟩
        rw [run_call, made]
      · right
        obtain ⟨past, w₀, v, seen, cells, fewer, more, counts, alike, whole⟩ := there
        obtain ⟨answer, alike'⟩ := known.alike suits running plain counts alike
        have counted' : (dev.exec t e v).2.counts t = v.counts t + 1 := exec_counts
        change m.tried s = true at tried
        refine ⟨by simp [tried], past, w₀, (dev.exec t e v).2, seen, cells, fewer, by omega,
          by omega, alike', whole.trans ?_⟩
        rw [run_call, answer]
  other c t e k s u th known h running _ _ away there := by
    have counts : (dev.exec t e c.world).2.counts u = c.world.counts u := exec_counts_of_ne away
    rcases h.thread u th there with ⟨untried, anywhere⟩ | ⟨tried, past, w₀, v, rest⟩
    · exact Or.inl ⟨untried, fun v same => anywhere v (same.trans counts)⟩
    · obtain ⟨seen, cells, fewer, more, same, alike, whole⟩ := rest
      refine Or.inr ⟨tried, past, w₀, v, seen, cells, fewer, more.trans_eq counts.symm,
        same.trans counts.symm, ?_, whole⟩
      intro key has
      exact (alike key has).trans (known.1.frame suits running away there has).symm
  start c t th _ _ _ started _ := by
    obtain ⟨untried, text⟩ := fresh th started
    exact Or.inl ⟨untried, fun v _ => ⟨v, rfl, Nat.le_refl _, by rw [text]⟩⟩
  spawn c t e k s u child _ _ _ born _ _ := by cases born
  crash _ _ _ _ := trivial

/-- A thread that has ended has ended as its program does when all of its calls are made at
one moment of the run, between its first call and its last. -/
theorem ended_at_one_moment (suits : m.Suits dev Good) (new : ∀ th, starts th → m.Newcomer th)
    {text : S → Prog E R α} (text_note : ∀ s e r, text (m.note s e r) = text s)
    (texts : ∀ th, starts th → text th.seen = th.prog)
    {c₀ : Config E R (Store Key Cell) S α} (none : ∀ t, c₀.threads t = none)
    (h : Reach (pool dev m starts) D c₀ c) {a : α} (ended : c.outcome t = some (a, s)) :
    ∃ c' w₀ v, Reach (pool dev m starts) D c₀ c' ∧ Reach (pool dev m starts) D c' c ∧
      w₀.cells = c'.world.cells ∧ w₀.counts t ≤ c'.world.counts t ∧
      c'.world.counts t ≤ c.world.counts t ∧
      run (dev.exec t) (text s) w₀ = (a, v) ∧ v.counts t = c.world.counts t := by
  let moment : Store Key Cell → Prop := fun w => ∃ c', Reach (pool dev m starts) D c₀ c' ∧
    Reach (pool dev m starts) D c' c ∧ w = c'.world
  have stable : (replay dev m text moment).Stable (pool dev m starts) D fun c =>
      Known m Good c₀.world.cells c ∧ moment c.world :=
    replay_stable suits text_note
      (fun th started => ⟨(new th started).untried, texts th started⟩) moment
  have along : ∀ b, Relation.ReflTransGen (fun b b' => Step (pool dev m starts) D b b' ∧
      Reach (pool dev m starts) D c₀ b ∧ Reach (pool dev m starts) D b' c) c₀ b →
      Known m Good c₀.world.cells b ∧ (replay dev m text moment).Holds b := by
    intro b run
    induction run with
    | refl =>
      exact ⟨known_start none, trivial, fun t th there => by cases (none t).symm.trans there⟩
    | tail _ hs ih =>
      obtain ⟨known, holds⟩ := ih
      obtain ⟨hs, before, after⟩ := hs
      exact ⟨known.step suits new hs, stable.step ⟨known, _, before, .head hs after, rfl⟩ holds hs⟩
  obtain ⟨-, holds⟩ := along c h.between
  rcases holds.thread t _ (thread_of_outcome ended) with ⟨-, anywhere⟩ | ⟨-, now, w₀, v, rest⟩
  · obtain ⟨w₀, cells, fewer, whole⟩ := anywhere c.world rfl
    exact ⟨c, w₀, c.world, h, .refl, cells, fewer, Nat.le_refl _, whole, rfl⟩
  · obtain ⟨⟨c', before, after, rfl⟩, cells, fewer, more, same, -, whole⟩ := rest
    exact ⟨c', w₀, v, before, after, cells, fewer, more, whole, same⟩

/-- A cell that is not as it was at the start is the one of a thread. -/
def changes (m : Manners E R S Key) (start : Key → Option Cell) :
    Account (Store Key Cell) S Key where
  settled w key := w.cells key = start key
  owes s key := m.held s = some key

/-- Nobody has lost a cell. -/
def careful (m : Manners E R S Key) : Assertion E R (Store Key Cell) S α where
  world _ := True
  thread _ th _ := m.lost th.seen = false

theorem changes_kept (suits : m.Suits dev Good) (alive : ∀ c, ¬ D.crash c) :
    (changes m start).Kept (pool dev m starts) D fun c =>
      Known m Good start c ∧ (careful m).Holds c where
  call c t e k s key known running _ before := by
    obtain ⟨known, -⟩ := known
    by_cases here : dev.key t (c.world.counts t) e = some key
    · change (dev.exec t e c.world).2.cells key = start key ∨
        m.held (m.note s e (dev.exec t e c.world).1) = some key ∨ _
      rw [exec_some here, tick_cells, put_cells]
      rcases known.key suits running here with ⟨makes, untried⟩ | ⟨plain, place, held⟩
      · have nothing : m.held s = none := (known.standing.thread t _ running).2.1 untried
        rcases suits.made t _ e key (c.world.cells key) s makes here with ⟨-, same⟩ | ⟨-, new, -⟩
        · left
          rcases before with settled | owes
          · exact same.trans settled
          · cases nothing.symm.trans owes
        · exact Or.inr (Or.inl new)
      · obtain ⟨-, -, mine⟩ := known.standing.thread t _ running
        obtain ⟨free, cell, full, good⟩ := mine key held
        rw [full]
        rcases suits.used t _ e key cell s plain place held good with ⟨still, -⟩ | ⟨-, gone⟩
        · exact Or.inr (Or.inl still)
        · exact Or.inl (gone.trans free.symm)
    · rcases before with settled | owes
      · exact Or.inl ((exec_cells_of_ne here).trans settled)
      · right
        left
        change m.held (m.note s e (dev.exec t e c.world).1) = some key
        cases there : dev.key t (c.world.counts t) e with
        | none =>
          have plain : m.makes e = false := by
            by_contra makes
            exact suits.keyed t _ e (by simpa using makes) there
          exact (suits.idle s e _ plain ((suits.placed t _ e plain).symm.trans there)).trans owes
        | some other =>
          rcases known.key suits running there with ⟨-, untried⟩ | ⟨-, -, held⟩
          · have nothing := (known.standing.thread t _ running).2.1 untried
            cases nothing.symm.trans owes
          · have same : other = key := Option.some.inj (held.symm.trans owes)
            exact absurd (same ▸ there) here
  finish c t a s key known running owes := by
    obtain ⟨known, careful⟩ := known
    have ended := (known.standing.thread t _ running).1
    have kept := careful.thread t _ running
    rcases ended with none | lost
    · cases none.symm.trans owes
    · cases kept.symm.trans lost
  crash c _ _ ok := absurd ok (alive c)

/-- Where no thread loses its cell and none is killed, the cells are in the end as they were
at the start. -/
theorem cells_of_quiet (suits : m.Suits dev Good) (new : ∀ th, starts th → m.Newcomer th)
    (fresh : ∀ th, starts th → m.lost th.seen = false) (alive : ∀ c, ¬ D.crash c)
    {c₀ : Config E R (Store Key Cell) S α}
    (keeps : ∀ c t e k s, Known m Good c₀.world.cells c → c.threads t = some ⟨.call e k, s⟩ →
      D.call c t e → m.lost s = false → m.lost (m.note s e (dev.exec t e c.world).1) = false)
    (none : ∀ t, c₀.threads t = none)
    (h : Reach (pool dev m starts) D c₀ c) (quiet : c.Quiet) :
    c.world.cells = c₀.world.cells := by
  have tidy : (careful m).Stable (pool dev m starts) D (Known m Good c₀.world.cells) :=
    { own := fun c t e k s known holds running _ ok =>
        ⟨trivial, keeps c t e k s known running ok (holds.thread t _ running)⟩
      other := fun c t e k s u th _ holds _ _ _ _ there => holds.thread u th there
      start := fun c t th _ _ _ started _ => fresh th started
      spawn := fun c t e k s u child _ _ _ born _ _ => by cases born
      crash := fun _ _ _ _ => trivial }
  have kept : (changes m c₀.world.cells).Kept (pool dev m starts) D fun c =>
      Known m Good c₀.world.cells c ∧ (careful m).Holds c := changes_kept suits alive
  have runs : ∀ c c', (Known m Good c₀.world.cells c ∧ (careful m).Holds c) ∧
      (changes m c₀.world.cells).Balanced c → Step (pool dev m starts) D c c' →
      (Known m Good c₀.world.cells c' ∧ (careful m).Holds c') ∧
        (changes m c₀.world.cells).Balanced c' := by
    rintro c c' ⟨⟨known, holds⟩, balanced⟩ hs
    exact ⟨⟨known.step suits new hs, tidy.step known holds hs⟩,
      kept.step ⟨known, holds⟩ balanced hs⟩
  have start : (careful m).Holds c₀ :=
    ⟨trivial, fun t th there => by cases (none t).symm.trans there⟩
  obtain ⟨known, balanced⟩ := h.invariant _ _ runs
    ⟨⟨known_start none, start⟩, fun key => Or.inl rfl⟩
  funext key
  exact kept.settled_of_quiet known balanced quiet key

end Runs
end

end PrivateCells
