import Mathlib

/-!
# Texts of lines

A text whose lines end in line feeds, what is read of it line by line, and lines without
the blanks around them.
-/
namespace LineTexts

/-- Every line with its line feed. -/
def ended (lines : List (List Char)) : List Char := lines.flatMap fun line => line ++ ['\n']

/-- The lines of a text. What comes after the last line feed is a line too, unless it is
empty. -/
def records (text : List Char) : List (List Char) :=
  let pieces := text.splitOn '\n'
  if pieces.getLast? = some [] then pieces.dropLast else pieces

section Lines
variable {lines : List (List Char)} {text line : List Char}

@[simp] theorem ended_nil : ended [] = [] := rfl

@[simp] theorem ended_cons (line : List Char) (rest : List (List Char)) :
    ended (line :: rest) = line ++ '\n' :: ended rest := by
  simp [ended]

@[simp] theorem ended_append (lines rest : List (List Char)) :
    ended (lines ++ rest) = ended lines ++ ended rest :=
  List.flatMap_append

theorem splitOn_ended (whole : ∀ line ∈ lines, '\n' ∉ line) :
    (ended lines).splitOn '\n' = lines ++ [[]] := by
  induction lines with
  | nil => rfl
  | cons line rest ih =>
    rw [ended_cons, List.splitOn_append_cons_self_of_not_mem (whole line List.mem_cons_self),
      ih fun l there => whole l (List.mem_cons_of_mem _ there)]
    rfl

/-- What is written line by line is read line by line. -/
theorem records_ended (whole : ∀ line ∈ lines, '\n' ∉ line) : records (ended lines) = lines := by
  simp [records, splitOn_ended whole]

theorem not_mem_of_splitOn (h : line ∈ text.splitOn '\n') : '\n' ∉ line := by
  induction text generalizing line with
  | nil =>
    rw [List.splitOn_nil, List.mem_singleton] at h
    rw [h]
    exact List.not_mem_nil
  | cons c rest ih =>
    rw [List.splitOn_cons_eq_if_modifyHead] at h
    split at h
    · rcases List.mem_cons.mp h with rfl | h
      · exact List.not_mem_nil
      · exact ih h
    · rename_i other
      obtain ⟨first, others, parts⟩ := List.exists_cons_of_ne_nil (List.splitOn_ne_nil '\n' rest)
      rw [parts, List.modifyHead_cons] at h
      rcases List.mem_cons.mp h with rfl | h
      · intro there
        rcases List.mem_cons.mp there with same | there
        · exact other (by rw [← same]; rfl)
        · exact ih (parts ▸ List.mem_cons_self) there
      · exact ih (parts ▸ List.mem_cons_of_mem _ h)

theorem not_mem_of_records (h : line ∈ records text) : '\n' ∉ line := by
  unfold records at h
  dsimp only at h
  split at h
  · exact not_mem_of_splitOn (List.dropLast_subset _ h)
  · exact not_mem_of_splitOn h

end Lines

/-- Without the blanks around it. -/
def trim (blank : Char → Bool) (l : List Char) : List Char :=
  ((l.dropWhile blank).reverse.dropWhile blank).reverse

section Trim
variable {blank : Char → Bool} {l : List Char}

theorem dropWhile_eq_self (h : ∀ c, l.head? = some c → blank c = false) :
    l.dropWhile blank = l := by
  cases l with
  | nil => rfl
  | cons c rest => simp [h c rfl]

/-- A text without blanks at its ends. -/
theorem trim_eq_self (head : ∀ c, l.head? = some c → blank c = false)
    (last : ∀ c, l.getLast? = some c → blank c = false) : trim blank l = l := by
  rw [trim, dropWhile_eq_self head, dropWhile_eq_self, List.reverse_reverse]
  intro c found
  rw [List.head?_reverse] at found
  exact last c found

/-- The blanks in front of a text and after it. -/
theorem trim_blanks {front back : List Char} (before : ∀ c ∈ front, blank c = true)
    (after : ∀ c ∈ back, blank c = true) (bare : ∀ c ∈ l, blank c = false) :
    trim blank (front ++ l ++ back) = l := by
  rw [trim, List.append_assoc, List.dropWhile_append_of_pos before]
  cases l with
  | nil =>
    have none : (back ++ []).dropWhile blank = ([] : List Char).dropWhile blank :=
      List.dropWhile_append_of_pos after
    rw [List.append_nil] at none
    rw [List.nil_append, none]
    rfl
  | cons c rest =>
    have first : blank c = false := bare c List.mem_cons_self
    rw [List.cons_append, List.dropWhile_cons_of_neg (by simp [first]), ← List.cons_append,
      List.reverse_append,
      List.dropWhile_append_of_pos fun d there => after d (List.mem_reverse.mp there),
      dropWhile_eq_self, List.reverse_reverse]
    intro d found
    exact bare d (List.mem_reverse.mp (List.mem_of_mem_head? found))

end Trim

end LineTexts
