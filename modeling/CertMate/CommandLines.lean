import Mathlib

/-!
# Command lines

An argument vector is read from the left: an option takes the next element as its
operand or stands alone. What was written as options and operands is read back as these.
-/
namespace CommandLines

variable {α : Type}

/-- Which options take an operand. -/
structure Grammar (α : Type) where
  valued : List α
  flags : List α

inductive Setting (α : Type) where
  | flag (name : α)
  | valued (name value : α)
  deriving DecidableEq, Repr

namespace Setting

def name : Setting α → α
  | .flag name => name
  | .valued name _ => name

def words : Setting α → List α
  | .flag name => [name]
  | .valued name value => [name, value]

end Setting

def render (settings : List (Setting α)) : List α := settings.flatMap Setting.words

theorem render_append (first second : List (Setting α)) :
    render (first ++ second) = render first ++ render second :=
  List.flatMap_append

def Grammar.Fits (g : Grammar α) : Setting α → Prop
  | .flag name => name ∈ g.flags ∧ name ∉ g.valued
  | .valued name _ => name ∈ g.valued

theorem fits_valued {g : Grammar α} {name value : α} :
    g.Fits (.valued name value) ↔ name ∈ g.valued := Iff.rfl

theorem fits_flag {g : Grammar α} {name : α} :
    g.Fits (.flag name) ↔ name ∈ g.flags ∧ name ∉ g.valued := Iff.rfl

section
variable [DecidableEq α]

/-- Nothing is returned when an operand is missing or an option is not known. -/
def Grammar.parse (g : Grammar α) : List α → Option (List (Setting α))
  | [] => some []
  | [name] => if name ∈ g.flags ∧ name ∉ g.valued then some [.flag name] else none
  | name :: value :: rest =>
    if name ∈ g.valued then (g.parse rest).map (.valued name value :: ·)
    else if name ∈ g.flags then (g.parse (value :: rest)).map (.flag name :: ·)
    else none

/-- The operands of an option, in order. -/
def values (name : α) (settings : List (Setting α)) : List α :=
  settings.filterMap fun
    | .flag _ => none
    | .valued n value => if n = name then some value else none

variable {g : Grammar α} {settings : List (Setting α)}

theorem parse_flag {name : α} (fits : g.Fits (.flag name)) (rest : List α) :
    g.parse (name :: rest) = (g.parse rest).map (.flag name :: ·) := by
  cases rest with
  | nil => exact if_pos fits
  | cons value rest => rw [Grammar.parse, if_neg fits.2, if_pos fits.1]

/-- The whole vector is consumed, and every operand is where it was put. -/
theorem parse_render (fits : ∀ setting ∈ settings, g.Fits setting) :
    g.parse (render settings) = some settings := by
  induction settings with
  | nil => rw [render, List.flatMap_nil, Grammar.parse]
  | cons setting rest ih =>
    obtain ⟨first, later⟩ := List.forall_mem_cons.mp fits
    cases setting with
    | flag name =>
      change g.parse (name :: render rest) = _
      rw [parse_flag first, ih later, Option.map_some]
    | valued name value =>
      change name ∈ g.valued at first
      change g.parse (name :: value :: render rest) = _
      rw [Grammar.parse, if_pos first, ih later, Option.map_some]

theorem values_append (name : α) (first second : List (Setting α)) :
    values name (first ++ second) = values name first ++ values name second :=
  List.filterMap_append

@[simp] theorem values_nil (name : α) : values name ([] : List (Setting α)) = [] := rfl

@[simp] theorem values_flag (name flag : α) (rest : List (Setting α)) :
    values name (.flag flag :: rest) = values name rest := rfl

theorem values_valued (name n value : α) (rest : List (Setting α)) :
    values name (.valued n value :: rest) =
      if n = name then value :: values name rest else values name rest := by
  rw [values, List.filterMap_cons]
  split <;> rename_i found <;> split at found <;> simp_all [values]

theorem values_map (name : α) (operands : List α) :
    values name (operands.map (.valued name)) = operands := by
  induction operands with
  | nil => rfl
  | cons value rest ih => rw [List.map_cons, values_valued, if_pos rfl, ih]

theorem values_map_other {name other : α} (ne : other ≠ name) (operands : List α) :
    values name (operands.map (.valued other)) = [] := by
  induction operands with
  | nil => rfl
  | cons value rest ih => rw [List.map_cons, values_valued, if_neg ne, ih]

end

end CommandLines
