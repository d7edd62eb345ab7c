import Mathlib

/-!
# Texts with marks in the place of words

A search through a text from the left puts a mark in the place of what it finds. The
mark is enclosed in two symbols; a word without them is in the new text only if it
was in the old one.
-/
namespace PatchedTexts

variable {α : Type}

/-- A symbol on each side of some text. -/
structure Mark (α : Type) where
  left : α
  inner : List α
  right : α

def Mark.text (m : Mark α) : List α := m.left :: (m.inner ++ [m.right])

/-- A word that no mark contains or touches. -/
structure Mark.Clear (m : Mark α) (x : List α) : Prop where
  nonempty : x ≠ []
  left : m.left ∉ x
  right : m.right ∉ x
  inner : ¬ x <:+: m.inner

/-- A word that has nothing of the end of a text ends before it. -/
theorem prefix_of_apart {p x a y : List α} (nonempty : x ≠ []) (apart : ∀ c ∈ x, c ∉ y)
    (front : p ++ x <+: a ++ y) : p ++ x <+: a := by
  induction y using List.reverseRecOn with
  | nil => rwa [List.append_nil] at front
  | append_singleton y c ih =>
    rw [← List.append_assoc, List.prefix_concat_iff] at front
    rcases front with whole | front
    · have last : x.getLast? = some c := by
        have ends := congrArg List.getLast? whole
        rwa [List.getLast?_append_of_ne_nil p nonempty, List.getLast?_concat] at ends
      exact absurd (List.mem_append_right y List.mem_cons_self)
        (apart c (List.mem_of_getLast? last))
    · apply ih _ front
      intro d there inside
      exact apart d there (List.mem_append_left _ inside)

theorem infix_of_apart {x a y : List α} (nonempty : x ≠ []) (apart : ∀ c ∈ x, c ∉ y)
    (inside : x <:+: a ++ y) : x <:+: a := by
  obtain ⟨p, q, parts⟩ := inside
  have front : p ++ x <+: a ++ y := ⟨q, parts⟩
  exact (List.suffix_append p x).isInfix.trans (prefix_of_apart nonempty apart front).isInfix

/-- Some parts of a text are left out, with a mark in the place of each. -/
inductive Patched (m : Mark α) : List α → List α → Prop where
  | nil : Patched m [] []
  | keep {s t : List α} (c : α) : Patched m s t → Patched m (c :: s) (c :: t)
  | cut {s t : List α} (w : List α) : Patched m s t → Patched m (w ++ s) (m.text ++ t)

section
variable {m : Mark α} {s t x : List α}

theorem Patched.append_left (h : Patched m s t) (w : List α) : Patched m (w ++ s) (w ++ t) := by
  induction w with
  | nil => exact h
  | cons c w ih => exact .keep c ih

/-- A word without the left symbol does not begin in a mark or go into one. -/
theorem Patched.of_front (h : Patched m s t) (free : m.left ∉ x) (front : x <+: t) : x <+: s := by
  induction h generalizing x with
  | nil => exact front
  | keep c _ ih =>
    cases x with
    | nil => exact List.nil_prefix
    | cons d x =>
      obtain ⟨rfl, rest⟩ := List.cons_prefix_cons.mp front
      apply List.cons_prefix_cons.mpr
      exact ⟨rfl, ih (fun there => free (List.mem_cons_of_mem d there)) rest⟩
  | cut w _ _ =>
    cases x with
    | nil => exact List.nil_prefix
    | cons d x =>
      rw [Mark.text, List.cons_append] at front
      obtain ⟨rfl, -⟩ := List.cons_prefix_cons.mp front
      exact absurd List.mem_cons_self free

theorem prefix_of_free {a : List α} {r : α} (free : r ∉ x) (front : x <+: a ++ r :: t) :
    x <+: a := by
  induction a generalizing x with
  | nil =>
    cases x with
    | nil => exact List.nil_prefix
    | cons d x =>
      obtain ⟨rfl, -⟩ := List.cons_prefix_cons.mp front
      exact absurd List.mem_cons_self free
  | cons c a ih =>
    cases x with
    | nil => exact List.nil_prefix
    | cons d x =>
      rw [List.cons_append] at front
      obtain ⟨rfl, rest⟩ := List.cons_prefix_cons.mp front
      apply List.cons_prefix_cons.mpr
      exact ⟨rfl, ih (fun there => free (List.mem_cons_of_mem d there)) rest⟩

/-- A clear word does not begin in a mark. -/
theorem Mark.Clear.beyond (clear : m.Clear x) {w : List α} (part : w <:+ m.text) (some_ : w ≠ [])
    (front : x <+: w ++ t) : False := by
  obtain ⟨d, y, rfl⟩ := List.exists_cons_of_ne_nil clear.nonempty
  rw [Mark.text, List.suffix_cons_iff] at part
  rcases part with rfl | part
  · rw [List.cons_append] at front
    obtain ⟨rfl, -⟩ := List.cons_prefix_cons.mp front
    exact clear.left List.mem_cons_self
  · rcases List.suffix_concat_iff.mp part with rfl | ⟨w, rfl, inside⟩
    · exact some_ rfl
    · rw [List.append_assoc, List.singleton_append] at front
      have within : d :: y <+: w := prefix_of_free clear.right front
      exact clear.inner (within.isInfix.trans inside.isInfix)

/-- A clear word in a text after a piece of a mark is in the text. -/
theorem Mark.Clear.infix_append (clear : m.Clear x) {w : List α} (part : w <:+ m.text)
    (inside : x <:+: w ++ t) : x <:+: t := by
  induction w with
  | nil => exact inside
  | cons c w ih =>
    rw [List.cons_append, List.infix_cons_iff] at inside
    rcases inside with front | inside
    · exact (clear.beyond part (List.cons_ne_nil c w) front).elim
    · exact ih ((List.suffix_cons c w).trans part) inside

/-- A clear word in the new text was in the old one. -/
theorem Patched.of_inside (h : Patched m s t) (clear : m.Clear x)
    (inside : x <:+: t) : x <:+: s := by
  induction h with
  | nil => exact inside
  | keep c rest ih =>
    rcases List.infix_cons_iff.mp inside with front | inside
    · exact ((rest.keep c).of_front clear.left front).isInfix
    · exact (ih inside).trans (List.suffix_cons c _).isInfix
  | cut w rest ih =>
    have later := clear.infix_append (List.suffix_refl _) inside
    exact (ih later).trans (List.suffix_append w _).isInfix

end

section Replace
variable (m : Mark α) (find : List α → Option (Nat × Nat))

/-- From the left, where something is found: so much is kept, a mark is put and so
much is left out. The number says how much is still to be passed over. -/
def replace : Nat → List α → List α
  | _, [] => []
  | skip + 1, _ :: s => replace skip s
  | 0, c :: s =>
    match find (c :: s) with
    | some (kept, dropped) => (c :: s).take kept ++ m.text ++ replace (kept + dropped - 1) s
    | none => c :: replace 0 s

theorem replace_skip (skip : Nat) (s : List α) :
    replace m find skip s = replace m find 0 (s.drop skip) := by
  induction skip generalizing s with
  | zero => rfl
  | succ skip ih =>
    cases s with
    | nil => rfl
    | cons c s => exact ih s

/-- What is found is there, and something is left out. -/
def Fits : Prop :=
  ∀ s kept dropped, find s = some (kept, dropped) → 0 < dropped ∧ kept + dropped ≤ s.length

variable {m find}

theorem replace_found {s : List α} {kept dropped : Nat} (fits : Fits find)
    (found : find s = some (kept, dropped)) :
    replace m find 0 s = s.take kept ++ m.text ++ replace m find 0 (s.drop (kept + dropped)) := by
  obtain ⟨positive, within⟩ := fits s kept dropped found
  cases s with
  | nil =>
    rw [List.length_nil] at within
    omega
  | cons c s =>
    have size : (c :: s).drop (kept + dropped) = s.drop (kept + dropped - 1) := by
      rw [show kept + dropped = kept + dropped - 1 + 1 by omega, List.drop_succ_cons]
      rfl
    rw [size, ← replace_skip, replace, found]

theorem replace_missed {c : α} {s : List α} (missed : find (c :: s) = none) :
    replace m find 0 (c :: s) = c :: replace m find 0 s := by
  rw [replace, missed]

/-- What holds of the empty text and is kept in both cases holds of every text. -/
theorem replace_induction {P : List α → List α → Prop} (fits : Fits find) (nil : P [] [])
    (missed : ∀ c s, find (c :: s) = none → P s (replace m find 0 s) →
      P (c :: s) (c :: replace m find 0 s))
    (found : ∀ s kept dropped, find s = some (kept, dropped) →
      P (s.drop (kept + dropped)) (replace m find 0 (s.drop (kept + dropped))) →
      P s (s.take kept ++ m.text ++ replace m find 0 (s.drop (kept + dropped))))
    (s : List α) : P s (replace m find 0 s) := by
  induction size : s.length using Nat.strongRecOn generalizing s with
  | ind n ih =>
    subst size
    cases s with
    | nil => exact nil
    | cons c s =>
      cases search : find (c :: s) with
      | none =>
        rw [replace_missed search]
        exact missed c s search (ih s.length (Nat.lt_succ_self _) s rfl)
      | some bounds =>
        obtain ⟨kept, dropped⟩ := bounds
        obtain ⟨positive, within⟩ := fits _ _ _ search
        rw [replace_found fits search]
        refine found _ kept dropped search (ih _ ?_ _ rfl)
        rw [List.length_drop]
        omega

/-- A text in which nothing is found stays. -/
theorem replace_nothing {s : List α} (nothing : ∀ u, u <:+ s → find u = none) :
    replace m find 0 s = s := by
  induction s with
  | nil => rfl
  | cons c s ih =>
    rw [replace_missed (nothing _ (List.suffix_refl _))]
    congr 1
    apply ih
    intro u part
    exact nothing u (part.trans (List.suffix_cons c s))

theorem patched_replace (fits : Fits find) (s : List α) : Patched m s (replace m find 0 s) := by
  apply replace_induction fits
  · exact .nil
  · intro c s _ h
    exact .keep c h
  · intro s kept dropped search h
    obtain ⟨-, within⟩ := fits s kept dropped search
    have parts : s = s.take kept ++ ((s.drop kept).take dropped ++ s.drop (kept + dropped)) := by
      rw [← List.drop_drop, List.take_append_drop, List.take_append_drop]
    rw [List.append_assoc]
    conv => lhs; rw [parts]
    exact (Patched.cut _ h).append_left _

end Replace

section ReplaceAll
variable [DecidableEq α] (m : Mark α) (old : List α)

/-- `strings.ReplaceAll` with a mark; the old word is not empty. -/
def replaceAll (s : List α) : List α :=
  replace m (fun s => if old <+: s then some (0, old.length) else none) 0 s

variable {m old}

theorem replaceAll_fits (nonempty : old ≠ []) :
    Fits fun s : List α => if old <+: s then some (0, old.length) else none := by
  intro s kept dropped found
  dsimp only at found
  split at found
  · rename_i front
    cases found
    rw [Nat.zero_add]
    exact ⟨List.length_pos_iff.mpr nonempty, front.length_le⟩
  · cases found

theorem patched_replaceAll (nonempty : old ≠ []) (s : List α) : Patched m s (replaceAll m old s) :=
  patched_replace (replaceAll_fits nonempty) s

/-- A clear word is gone after it was replaced. -/
theorem replaceAll_absent (clear : m.Clear old) (s : List α) : ¬ old <:+: replaceAll m old s := by
  have fits := replaceAll_fits clear.nonempty
  apply replace_induction (P := fun _ t => ¬ old <:+: t) fits
  · intro inside
    exact clear.nonempty (List.infix_nil.mp inside)
  · intro c s missed absent inside
    rcases List.infix_cons_iff.mp inside with front | inside
    · have begins := ((patched_replace fits s).keep c).of_front clear.left front
      rw [if_pos begins] at missed
      cases missed
    · exact absent inside
  · intro s kept dropped found absent inside
    split at found
    · cases found
      rw [List.take_zero, List.nil_append] at inside
      exact absent (clear.infix_append (List.suffix_refl _) inside)
    · cases found

end ReplaceAll

end PatchedTexts
