import Mathlib

/-!
# The first rows by two keys

Rows are ordered by one key and cut, and ought to be the first by another.
Exactly which disagreements of the two keys are seen is a matter of how many
rows are ahead.
-/
namespace RankedRows

section
variable {ρ α : Type} [LinearOrder α] {key : ρ → α}

/-- The greatest key comes first. -/
def Descending (key : ρ → α) (l : List ρ) : Prop := l.Pairwise fun a b => key b ≤ key a

/-- The first `n` rows by the key; rows with the same key come in any order. -/
def First (key : ρ → α) (rows : List ρ) (n : Nat) (l : List ρ) : Prop :=
  ∃ p : List ρ, p.Perm rows ∧ Descending key p ∧ l = p.take n

theorem exists_descending (key : ρ → α) (rows : List ρ) :
    ∃ p : List ρ, p.Perm rows ∧ Descending key p := by
  have total : Std.Total fun a b : ρ => key b ≤ key a := ⟨fun a b => le_total _ _⟩
  have trans : IsTrans ρ fun a b => key b ≤ key a := ⟨fun a b c ab bc => bc.trans ab⟩
  refine ⟨rows.insertionSort fun a b => key b ≤ key a, List.perm_insertionSort _ _, ?_⟩
  exact List.pairwise_insertionSort _ _

/-- The first of the rows that were made of values are made of the first values. -/
theorem First.of_map {σ : Type} {write : σ → ρ} {read : ρ → Option σ} {values : List σ}
    (inverse : ∀ v ∈ values, read (write v) = some v) {n : Nat} {l : List ρ}
    (h : First key (values.map write) n l) :
    ∃ l', l = l'.map write ∧ (∀ v ∈ l', v ∈ values) ∧
      First (fun v => key (write v)) values n l' := by
  obtain ⟨p, perm, order, rfl⟩ := h
  have back : ∀ vs : List σ, (∀ v ∈ vs, v ∈ values) → (vs.map write).filterMap read = vs := by
    intro vs
    induction vs with
    | nil => intro _; rfl
    | cons v vs ih =>
      intro inside
      rw [List.map_cons, List.filterMap_cons, inverse v (inside v List.mem_cons_self)]
      dsimp only
      rw [ih fun u there => inside u (List.mem_cons_of_mem v there)]
  have made : ∀ q : List ρ, (∀ r ∈ q, r ∈ values.map write) → (q.filterMap read).map write = q := by
    intro q
    induction q with
    | nil => intro _; rfl
    | cons r q ih =>
      intro inside
      obtain ⟨v, there, rfl⟩ := List.mem_map.mp (inside r List.mem_cons_self)
      rw [List.filterMap_cons, inverse v there]
      dsimp only
      rw [List.map_cons, ih fun u there => inside u (List.mem_cons_of_mem _ there)]
  have whole := made p fun r there => perm.mem_iff.mp there
  have perm' : (p.filterMap read).Perm values := by
    have moved := perm.filterMap read
    rwa [back values fun v there => there] at moved
  have order' : Descending (fun v => key (write v)) (p.filterMap read) := by
    rw [← whole] at order
    exact List.pairwise_map.mp order
  refine ⟨(p.filterMap read).take n, ?_, ?_, p.filterMap read, perm', order', rfl⟩
  · rw [List.map_take, whole]
  · intro v there
    exact perm'.mem_iff.mp (List.mem_of_mem_take there)

/-- What is above the rest comes first. -/
theorem Descending.split {l : List ρ} (h : Descending key l) (P : ρ → Bool)
    (above : ∀ a ∈ l, ∀ b ∈ l, P a = true → P b = false → key b < key a) :
    l = l.filter P ++ l.filter fun r => !P r := by
  induction l with
  | nil => rfl
  | cons x rest ih =>
    have tail := ih (List.pairwise_cons.mp h).2 fun a ha b hb =>
      above a (List.mem_cons_of_mem x ha) b (List.mem_cons_of_mem x hb)
    cases first : P x with
    | true =>
      rw [List.filter_cons_of_pos first, List.filter_cons_of_neg (by simp [first]),
        List.cons_append, ← tail]
    | false =>
      have none : rest.filter P = [] := by
        rw [List.filter_eq_nil_iff]
        intro y there yes
        have below := (List.pairwise_cons.mp h).1 y there
        have higher := above y (List.mem_cons_of_mem x there) x List.mem_cons_self yes first
        exact absurd below (not_le.mpr higher)
      rw [none, List.nil_append] at tail
      rw [List.filter_cons_of_neg (by simp [first]), none, List.nil_append,
        List.filter_cons_of_pos (by simp [first]), ← tail]

/-- How many rows come before a row, whatever the order of equals. -/
def rank (key : ρ → α) (rows : List ρ) (r : ρ) : Nat := rows.countP fun x => decide (key r < key x)

/-- With few rows ahead of it, a row or an equal of it is among the first. -/
theorem Descending.of_rank {l : List ρ} (h : Descending key l) {r : ρ} {n : Nat} (there : r ∈ l)
    (few : rank key l r < n) : ∃ x ∈ l.take n, key x = key r := by
  have parts := h.split (fun x => decide (key r < key x)) fun a _ b _ yes no => by
    rw [decide_eq_true_iff] at yes
    rw [decide_eq_false_iff_not, not_lt] at no
    exact no.trans_lt yes
  generalize ahead : (l.filter fun x => decide (key r < key x)) = high at parts
  generalize behind : (l.filter fun x => !decide (key r < key x)) = low at parts
  have size : high.length = rank key l r := by
    rw [← ahead, rank, List.countP_eq_length_filter]
  have inside : r ∈ low := by
    rw [← behind, List.mem_filter]
    exact ⟨there, by simp⟩
  cases low with
  | nil => cases inside
  | cons x rest =>
    refine ⟨x, ?_, le_antisymm ?_ ?_⟩
    · rw [parts, List.take_append, List.mem_append]
      right
      obtain ⟨m, more⟩ : ∃ m, n - high.length = m + 1 := ⟨n - high.length - 1, by omega⟩
      rw [more, List.take_succ_cons]
      exact List.mem_cons_self
    · have member : x ∈ l.filter fun x => !decide (key r < key x) := by
        rw [behind]
        exact List.mem_cons_self
      have below := (List.mem_filter.mp member).2
      simpa using below
    · rw [parts] at h
      have order := (List.pairwise_append.mp h).2.1
      rcases List.mem_cons.mp inside with rfl | later
      · exact le_refl _
      · exact (List.pairwise_cons.mp order).1 r later

/-- The first rows have few rows ahead of them. -/
theorem Descending.rank_lt {l : List ρ} (h : Descending key l) {x : ρ} {n : Nat}
    (among : x ∈ l.take n) : rank key l x < n := by
  have parts : l.take n ++ l.drop n = l := List.take_append_drop n l
  have order := h
  rw [← parts] at order
  have cross := (List.pairwise_append.mp order).2.2
  have behind : (l.drop n).countP (fun y => decide (key x < key y)) = 0 := by
    rw [List.countP_eq_zero]
    intro y later
    simpa using cross x among y later
  have ahead : (l.take n).countP (fun y => decide (key x < key y)) < (l.take n).length := by
    rw [List.countP_lt_length_iff]
    exact ⟨x, among, by simp⟩
  have size : (l.take n).length ≤ n := List.length_take_le n l
  rw [rank, ← parts, List.countP_append, behind]
  omega

/-- Of two rows of a list one comes first. -/
theorem rel_of_pairwise {R : ρ → ρ → Prop} {l : List ρ} (h : l.Pairwise R) {a b : ρ} (ha : a ∈ l)
    (hb : b ∈ l) : a = b ∨ R a b ∨ R b a := by
  induction l with
  | nil => cases ha
  | cons x rest ih =>
    obtain ⟨front, tail⟩ := List.pairwise_cons.mp h
    rcases List.mem_cons.mp ha with first | ha
    · rcases List.mem_cons.mp hb with second | hb
      · exact Or.inl (first.trans second.symm)
      · exact Or.inr (Or.inl (first ▸ front b hb))
    · rcases List.mem_cons.mp hb with second | hb
      · exact Or.inr (Or.inr (second ▸ front a ha))
      · exact ih tail ha hb

end

section Two
variable {ρ α β : Type} [LinearOrder α] [LinearOrder β] {time : ρ → α} {text : ρ → β}

/-- What is ahead of a row that is cut off by neither key is ahead by both. -/
theorem ahead_of_first {X l : List ρ} {n : Nat} (order : Descending text X) (cut : l = X.take n)
    (right : Descending time l) {a b : ρ} (ha : a ∈ l) (hb : b ∈ X) (ahead : text a < text b) :
    b ∈ l ∧ time a ≤ time b := by
  have parts : X.take n ++ X.drop n = X := List.take_append_drop n X
  have inside : b ∈ l := by
    rw [← parts] at hb order
    rcases List.mem_append.mp hb with hb | hb
    · rw [cut]
      exact hb
    · rw [cut] at ha
      exact absurd ((List.pairwise_append.mp order).2.2 a ha b hb) (not_le.mpr ahead)
  have same : Descending text l := by
    rw [cut]
    exact order.sublist (List.take_sublist n X)
  refine ⟨inside, ?_⟩
  rcases rel_of_pairwise (same.and right) ha inside with rfl | ⟨wrong, -⟩ | ⟨-, later⟩
  · exact absurd ahead (lt_irrefl _)
  · exact absurd wrong (not_le.mpr ahead)
  · exact later

variable {rows : List ρ} {A B : ρ → Bool} {n : Nat}

/-- What is to be shown is shown, and orders with all rows by both keys alike; where
not all of the places are taken, nothing else is shown. -/
structure Agrees (time : ρ → α) (text : ρ → β) (rows : List ρ) (A B : ρ → Bool) (n : Nat) :
    Prop where
  shown : ∀ r ∈ rows, A r = true → rank time rows r < n →
    B r = true ∧ ∀ r' ∈ rows, time r < time r' ↔ text r < text r'
  rest : rows.countP A < n → ∀ r ∈ rows, B r = true → A r = true

/-- What is wanted, if it has few rows ahead of it. -/
def good (time : ρ → α) (rows : List ρ) (A : ρ → Bool) (n : Nat) (r : ρ) : Bool :=
  A r && decide (rank time rows r < n)

theorem good_iff {r : ρ} : good time rows A n r = true ↔ A r = true ∧ rank time rows r < n := by
  simp [good]

/-- Only wanted rows are ahead of a wanted row. -/
theorem rank_filter (above : ∀ a b, A a = true → time a ≤ time b → A b = true) {r : ρ}
    (wanted : A r = true) : rank time (rows.filter A) r = rank time rows r := by
  rw [rank, rank, List.countP_filter]
  apply List.countP_congr
  intro x _
  simp only [Bool.and_eq_true, decide_eq_true_eq]
  exact ⟨fun h => h.1, fun h => ⟨h, above r x wanted h.le⟩⟩

theorem rank_perm {l l' : List ρ} (h : l.Perm l') (r : ρ) : rank time l r = rank time l' r :=
  h.countP_eq _

/-- The wanted rows fill the places, if there are enough of them. -/
theorem enough_good (above : ∀ a b, A a = true → time a ≤ time b → A b = true)
    (enough : n ≤ rows.countP A) : n ≤ (rows.filter (good time rows A n)).length := by
  obtain ⟨T, perm, order⟩ := exists_descending time (rows.filter A)
  have size : T.length = rows.countP A := by
    rw [perm.length_eq, List.countP_eq_length_filter]
  have front : ∀ x ∈ T.take n, good time rows A n x = true := by
    intro x among
    have wanted : A x = true :=
      (List.mem_filter.mp (perm.mem_iff.mp (List.mem_of_mem_take among))).2
    have few := order.rank_lt among
    rw [rank_perm perm, rank_filter above wanted] at few
    exact good_iff.mpr ⟨wanted, few⟩
  have all : (T.take n).countP (good time rows A n) = n := by
    rw [List.countP_eq_length.mpr front, List.length_take, size]
    omega
  have part : (T.take n).countP (good time rows A n) ≤ T.countP (good time rows A n) :=
    (List.take_sublist n T).countP_le
  have whole : T.countP (good time rows A n) ≤ rows.countP (good time rows A n) := by
    rw [perm.countP_eq, List.countP_filter]
    exact List.countP_mono_left fun x _ h => (Bool.and_eq_true_iff.mp h).1
  rw [← List.countP_eq_length_filter]
  omega

/-- A wanted row with few rows ahead is later than any row that is not one. -/
theorem good_above (above : ∀ a b, A a = true → time a ≤ time b → A b = true) {a b : ρ}
    (yes : good time rows A n a = true) (no : good time rows A n b = false) : time b < time a := by
  obtain ⟨wanted, few⟩ := good_iff.mp yes
  by_contra early
  have later : time a ≤ time b := not_lt.mp early
  have fewer : rank time rows b ≤ rank time rows a := by
    apply List.countP_mono_left
    intro x _ h
    rw [decide_eq_true_iff] at h ⊢
    exact later.trans_lt h
  have also : good time rows A n b = true :=
    good_iff.mpr ⟨above a b wanted later, by omega⟩
  rw [also] at no
  cases no

section First
variable (above : ∀ a b, A a = true → time a ≤ time b → A b = true)
  (beyond : ∀ a b, B a = true → text a ≤ text b → B b = true)
  (ties : ∀ a ∈ rows, ∀ b ∈ rows, time a = time b ↔ text a = text b) {l : List ρ}
include above ties

include beyond in
theorem agrees_of_first (found : First text (rows.filter B) n l)
    (right : First time (rows.filter A) n l) : Agrees time text rows A B n := by
  obtain ⟨X, permX, orderX, rfl⟩ := found
  obtain ⟨T, permT, orderT, same⟩ := right
  have inX : ∀ {r}, r ∈ rows → B r = true → r ∈ X := fun there yes =>
    permX.mem_iff.mpr (List.mem_filter.mpr ⟨there, yes⟩)
  have inT : ∀ {r}, r ∈ rows → A r = true → r ∈ T := fun there yes =>
    permT.mem_iff.mpr (List.mem_filter.mpr ⟨there, yes⟩)
  have byTime : Descending time (X.take n) := by
    rw [same]
    exact orderT.sublist (List.take_sublist n T)
  have byText : Descending text (X.take n) := orderX.sublist (List.take_sublist n X)
  have apart : ∀ {a b}, a ∈ rows → b ∈ rows → text a < text b → time a ≤ time b →
      time a < time b := fun ha hb less le =>
    lt_of_le_of_ne le fun equal => less.ne ((ties _ ha _ hb).mp equal)
  have apart' : ∀ {a b}, a ∈ rows → b ∈ rows → time a < time b → text a ≤ text b →
      text a < text b := fun ha hb less le =>
    lt_of_le_of_ne le fun equal => less.ne ((ties _ ha _ hb).mpr equal)
  refine ⟨fun r there wanted few => ?_, fun few r there yes => ?_⟩
  · -- An equal of the row is shown.
    rw [← rank_filter above wanted, ← rank_perm permT] at few
    obtain ⟨x, among, equal⟩ := orderT.of_rank (inT there wanted) few
    rw [← same] at among
    have memberX := permX.mem_iff.mp (List.mem_of_mem_take among)
    obtain ⟨thereX, yesX⟩ := List.mem_filter.mp memberX
    have equal' : text x = text r := (ties x thereX r there).mp equal
    refine ⟨beyond x r yesX equal'.le, fun r' there' => ?_⟩
    rw [← equal, ← equal']
    constructor
    · intro later
      have wanted' : A r' = true := above r r' wanted (equal ▸ later.le)
      have ahead := ahead_of_first orderT same byText among (inT there' wanted') later
      exact apart' thereX there' later ahead.2
    · intro later
      have ahead := ahead_of_first orderX rfl byTime among
        (inX there' (beyond x r' yesX later.le)) later
      exact apart thereX there' later ahead.2
  · -- With room left everything that is found is shown.
    have size : T.length = rows.countP A := by
      rw [permT.length_eq, List.countP_eq_length_filter]
    have lengths := congrArg List.length same
    rw [List.length_take, List.length_take] at lengths
    rw [List.take_of_length_le (by omega), List.take_of_length_le (by omega)] at same
    have shown := inX there yes
    rw [same] at shown
    exact (List.mem_filter.mp (permT.mem_iff.mp shown)).2
theorem first_of_agrees (found : First text (rows.filter B) n l)
    (agrees : Agrees time text rows A B n) : First time (rows.filter A) n l := by
  obtain ⟨X, permX, orderX, rfl⟩ := found
  obtain ⟨shown, rest⟩ := agrees
  have both : ∀ r ∈ rows, good time rows A n r = true → B r = true ∧
      ∀ r' ∈ rows, time r < time r' ↔ text r < text r' := by
    intro r there yes
    obtain ⟨wanted, few⟩ := good_iff.mp yes
    exact shown r there wanted few
  have inside : ∀ {x}, x ∈ X → x ∈ rows ∧ B x = true := fun there =>
    List.mem_filter.mp (permX.mem_iff.mp there)
  -- The rows to be shown come first, and in the order of the time.
  have parts := orderX.split (good time rows A n) fun a ha b hb yes no => by
    have before := good_above above yes no
    by_contra late
    have order := (both a (inside ha).1 yes).2 b (inside hb).1
    rcases (not_lt.mp late).lt_or_eq with less | equal
    · exact absurd (order.mpr less) (not_lt.mpr before.le)
    · have equal := (ties a (inside ha).1 b (inside hb).1).mpr equal
      exact absurd before (equal ▸ lt_irrefl _)
  obtain ⟨U, permU, orderU⟩ := exists_descending time
    ((rows.filter A).filter fun r => !good time rows A n r)
  have perm : (X.filter (good time rows A n)).Perm
      ((rows.filter A).filter (good time rows A n)) := by
    refine (permX.filter _).trans ?_
    rw [List.filter_filter, List.filter_filter]
    apply List.Perm.of_eq
    apply List.filter_congr
    intro r there
    cases yes : good time rows A n r with
    | false => rfl
    | true => rw [(both r there yes).1, (good_iff.mp yes).1]
  refine ⟨X.filter (good time rows A n) ++ U, ?_, ?_, ?_⟩
  · refine (perm.append permU).trans ?_
    exact List.filter_append_perm _ _
  · refine List.pairwise_append.mpr ⟨?_, orderU, ?_⟩
    · apply (orderX.sublist List.filter_sublist).imp_of_mem
      intro a b ha hb le
      obtain ⟨ha, yes⟩ := List.mem_filter.mp ha
      have order := (both a (inside ha).1 yes).2 b (inside (List.mem_filter.mp hb).1).1
      exact not_lt.mp fun later => absurd (order.mp later) (not_lt.mpr le)
    · intro a ha b hb
      have yes := (List.mem_filter.mp ha).2
      have no := (List.mem_filter.mp (permU.mem_iff.mp hb)).2
      exact (good_above above yes (by simpa using no)).le
  · by_cases enough : n ≤ rows.countP A
    · have size : n ≤ (X.filter (good time rows A n)).length := by
        rw [perm.length_eq, List.filter_filter]
        refine (enough_good above enough).trans_eq ?_
        congr 1
        apply List.filter_congr
        intro r _
        cases yes : good time rows A n r with
        | false => rfl
        | true => rw [(good_iff.mp yes).1]; rfl
      rw [List.take_append_of_le_length size]
      conv_lhs => rw [parts, List.take_append_of_le_length size]
    · have all : ∀ r, A r = true → good time rows A n r = true := by
        intro r wanted
        refine good_iff.mpr ⟨wanted, ?_⟩
        rw [← rank_filter above wanted]
        have bound : rank time (rows.filter A) r ≤ (rows.filter A).length := List.countP_le_length
        rw [← List.countP_eq_length_filter] at bound
        omega
      have none : U = [] := by
        rw [List.eq_nil_iff_forall_not_mem]
        intro r there
        obtain ⟨wanted, no⟩ := List.mem_filter.mp (permU.mem_iff.mp there)
        rw [all r (List.mem_filter.mp wanted).2] at no
        cases no
      have whole : X.filter (good time rows A n) = X := by
        rw [List.filter_eq_self]
        intro r there
        exact all r (rest (by omega) r (inside there).1 (inside there).2)
      rw [none, whole, List.append_nil]

include beyond in
/-- The first rows by the text are first by the time exactly if the keys agree on
what is shown, however equals are ordered. -/
theorem first_iff (found : First text (rows.filter B) n l) :
    First time (rows.filter A) n l ↔ Agrees time text rows A B n :=
  ⟨agrees_of_first above beyond ties found, first_of_agrees above ties found⟩

end First

end Two

end RankedRows
