import Mathlib

/-!
# Lists of texts as JSON

What `encoding/json` writes for a list of strings and what it reads from such a
text.
-/
namespace JsonTexts

/-- A unit of UTF-16 in four hexadecimal digits. -/
def hex4 (n : Nat) : List Char :=
  [Nat.digitChar (n / 4096 % 16), Nat.digitChar (n / 256 % 16), Nat.digitChar (n / 16 % 16),
    Nat.digitChar (n % 16)]

/-- Characters that are written by their number. -/
def numbered (c : Char) : Bool :=
  c.toNat < 32 || c = '<' || c = '>' || c = '&' || c.toNat = 0x2028 || c.toNat = 0x2029

def escape (c : Char) : List Char :=
  if c = '"' then ['\\', '"']
  else if c = '\\' then ['\\', '\\']
  else if c.toNat = 8 then ['\\', 'b']
  else if c.toNat = 12 then ['\\', 'f']
  else if c = '\n' then ['\\', 'n']
  else if c = '\r' then ['\\', 'r']
  else if c = '\t' then ['\\', 't']
  else if numbered c then '\\' :: 'u' :: hex4 c.toNat
  else [c]

def quoted (s : List Char) : List Char := '"' :: s.flatMap escape ++ ['"']

/-- The elements of an array with commas between them. -/
def elements : List String → List Char
  | [] => []
  | [s] => quoted s.toList
  | s :: rest => quoted s.toList ++ ',' :: elements rest

def marshal (values : List String) : String := String.ofList ('[' :: elements values ++ [']'])

def hexValue (c : Char) : Option Nat :=
  if '0' ≤ c ∧ c ≤ '9' then some (c.toNat - 48)
  else if 'a' ≤ c ∧ c ≤ 'f' then some (c.toNat - 87)
  else if 'A' ≤ c ∧ c ≤ 'F' then some (c.toNat - 55)
  else none

/-- What a character after a backslash stands for. -/
def unescape (c : Char) : Option Nat :=
  if c = '"' ∨ c = '\\' ∨ c = '/' then some c.toNat
  else if c = 'b' then some 8
  else if c = 'f' then some 12
  else if c = 'n' then some 10
  else if c = 'r' then some 13
  else if c = 't' then some 9
  else none

/-- The code points and units of UTF-16 up to the closing quote, and what follows it. -/
def readUnits : List Char → Option (List Nat × List Char)
  | [] => none
  | '"' :: rest => some ([], rest)
  | '\\' :: 'u' :: a :: b :: c :: d :: rest => do
    let a ← hexValue a
    let b ← hexValue b
    let c ← hexValue c
    let d ← hexValue d
    let (units, rest) ← readUnits rest
    some ((((a * 16 + b) * 16 + c) * 16 + d) :: units, rest)
  | '\\' :: c :: rest => do
    let unit ← unescape c
    let (units, rest) ← readUnits rest
    some (unit :: units, rest)
  | c :: rest =>
    if c.toNat < 32 then none
    else do
      let (units, rest) ← readUnits rest
      some (c.toNat :: units, rest)

def isHigh (unit : Nat) : Bool := 0xD800 ≤ unit && unit < 0xDC00

def isLow (unit : Nat) : Bool := 0xDC00 ≤ unit && unit < 0xE000

/-- Half of a pair on its own is replaced. -/
def character (unit : Nat) : Char := if isHigh unit || isLow unit then '\uFFFD' else Char.ofNat unit

/-- Pairs of units are characters outside of the first plane. -/
def pair : List Nat → List Char
  | [] => []
  | [unit] => [character unit]
  | high :: low :: rest =>
    if isHigh high && isLow low then
      Char.ofNat ((high - 0xD800) * 1024 + (low - 0xDC00) + 0x10000) :: pair rest
    else character high :: pair (low :: rest)

def isSpace (c : Char) : Bool := c = ' ' || c = '\n' || c = '\r' || c = '\t'

def skipSpace (s : List Char) : List Char := s.dropWhile isSpace

def readText (s : List Char) : Option (String × List Char) :=
  match skipSpace s with
  | '"' :: s => (readUnits s).map fun read => (String.ofList (pair read.1), read.2)
  | _ => none

/-- The strings of an array after its bracket, and what follows its end. -/
def readElements : Nat → List Char → Option (List String × List Char)
  | 0, _ => none
  | fuel + 1, s => do
    let (value, s) ← readText s
    match skipSpace s with
    | ',' :: s => (readElements fuel s).map fun read => (value :: read.1, read.2)
    | ']' :: s => some ([value], s)
    | _ => none

/-- The rest of a text after the bracket. -/
def readArray (s : List Char) : Option (List String) :=
  match skipSpace s with
  | ']' :: s => if skipSpace s = [] then some [] else none
  | _ =>
    match readElements (s.length + 1) s with
    | some (values, s) => if skipSpace s = [] then some values else none
    | none => none

/-- Only for arrays of strings; other texts are refused. -/
def unmarshal (text : String) : Option (List String) :=
  match skipSpace text.toList with
  | '[' :: s => readArray s
  | _ => none

example : marshal ["a.example", "<b>"] = "[\"a.example\",\"\\u003cb\\u003e\"]" := by decide +kernel

example : unmarshal " [ \"\\ud83d\\ude00\" , \"\\/\" ] " = some ["😀", "/"] := by decide +kernel

theorem hexValue_digitChar : ∀ d < 16, hexValue (Nat.digitChar d) = some d := by decide

theorem readUnits_hex4 {n : Nat} (h : n < 65536) (s : List Char) :
    readUnits ('\\' :: 'u' :: hex4 n ++ s) =
      (readUnits s).map fun read => (n :: read.1, read.2) := by
  have value : ((n / 4096 % 16 * 16 + n / 256 % 16) * 16 + n / 16 % 16) * 16 + n % 16 = n := by
    omega
  have digit : ∀ m, hexValue (Nat.digitChar (m % 16)) = some (m % 16) := fun m =>
    hexValue_digitChar _ (Nat.mod_lt m (by decide))
  rw [hex4, List.cons_append, List.cons_append, List.cons_append, List.cons_append,
    List.cons_append, List.cons_append, List.nil_append, readUnits, digit, digit, digit, digit]
  simp only [Option.bind_eq_bind, Option.bind_some]
  rw [value]
  cases readUnits s with
  | none => rfl
  | some read => rfl

theorem readUnits_escape (c : Char) (s : List Char) :
    readUnits (escape c ++ s) = (readUnits s).map fun read => (c.toNat :: read.1, read.2) := by
  have short : ∀ d n, unescape d = some n → readUnits ('\\' :: d :: s) =
      (readUnits s).map fun read => (n :: read.1, read.2) := by
    intro d n known
    have other : d ≠ 'u' := by
      rintro rfl
      cases known
    rw [readUnits]
    · rw [known]
      cases readUnits s with
      | none => rfl
      | some read => rfl
    · intro _ _ _ _ _ wrong
      exact absurd wrong other
  rw [escape]
  split
  · rename_i quote
    subst quote
    exact short '"' _ rfl
  split
  · rename_i slash
    subst slash
    exact short '\\' _ rfl
  split
  · rename_i value
    rw [value]
    exact short 'b' _ rfl
  split
  · rename_i value
    rw [value]
    exact short 'f' _ rfl
  split
  · rename_i line
    subst line
    exact short 'n' _ rfl
  split
  · rename_i line
    subst line
    exact short 'r' _ rfl
  split
  · rename_i tab
    subst tab
    exact short 't' _ rfl
  split
  · rename_i number
    apply readUnits_hex4
    rw [numbered] at number
    simp only [Bool.or_eq_true, decide_eq_true_eq] at number
    rcases number with ((((low | rfl) | rfl) | rfl) | line) | line
    · omega
    · decide
    · decide
    · decide
    · omega
    · omega
  · rename_i quote slash _ _ _ _ _ number
    have printed : ¬ c.toNat < 32 := by
      intro low
      apply number
      rw [numbered, decide_eq_true low]
      rfl
    rw [List.singleton_append, readUnits]
    · rw [if_neg printed]
      cases readUnits s with
      | none => rfl
      | some read => rfl
    · intro wrong
      exact quote wrong
    · intro _ _ _ _ _ wrong
      exact absurd wrong slash
    · intro _ _ wrong
      exact absurd wrong slash

theorem readUnits_quoted (s rest : List Char) :
    readUnits (s.flatMap escape ++ '"' :: rest) = some (s.map Char.toNat, rest) := by
  induction s with
  | nil => rfl
  | cons c s ih =>
    rw [List.flatMap_cons, List.append_assoc, readUnits_escape, ih]
    rfl

theorem character_toNat (c : Char) : isHigh c.toNat = false ∧ character c.toNat = c := by
  have valid : c.toNat < 0xD800 ∨ 0xDFFF < c.toNat ∧ c.toNat < 0x110000 := c.valid
  have high : isHigh c.toNat = false := by
    rw [isHigh, Bool.and_eq_false_iff, decide_eq_false_iff_not, decide_eq_false_iff_not]
    omega
  have low : isLow c.toNat = false := by
    rw [isLow, Bool.and_eq_false_iff, decide_eq_false_iff_not, decide_eq_false_iff_not]
    omega
  refine ⟨high, ?_⟩
  rw [character, high, low]
  exact Char.ofNat_toNat c

theorem pair_toNat (s : List Char) : pair (s.map Char.toNat) = s := by
  induction s with
  | nil => rfl
  | cons c s ih =>
    obtain ⟨high, same⟩ := character_toNat c
    cases s with
    | nil => rw [List.map_singleton, pair, same]
    | cons d s =>
      rw [List.map_cons] at ih
      rw [List.map_cons, List.map_cons, pair, high, Bool.false_and, if_neg Bool.false_ne_true, same,
        ih]

theorem readText_quoted (value : String) (rest : List Char) :
    readText (quoted value.toList ++ rest) = some (value, rest) := by
  have open_ : skipSpace (quoted value.toList ++ rest) =
      '"' :: (value.toList.flatMap escape ++ '"' :: rest) := by
    rw [quoted, List.cons_append, List.cons_append, List.append_assoc]
    rfl
  rw [readText, open_]
  change (readUnits (value.toList.flatMap escape ++ '"' :: rest)).map _ = _
  rw [readUnits_quoted, Option.map_some, pair_toNat, String.ofList_toList]

theorem readElements_elements (value : String) (values : List String) (rest : List Char)
    {fuel : Nat} (enough : values.length < fuel) :
    readElements fuel (elements (value :: values) ++ ']' :: rest) =
      some (value :: values, rest) := by
  induction values generalizing value fuel with
  | nil =>
    obtain ⟨more, rfl⟩ := Nat.exists_eq_succ_of_ne_zero (Nat.ne_of_gt enough)
    have close : skipSpace (']' :: rest) = ']' :: rest := rfl
    rw [elements, readElements, readText_quoted]
    simp only [Option.bind_eq_bind, Option.bind_some, close]
  | cons next values ih =>
    obtain ⟨more, rfl⟩ := Nat.exists_eq_succ_of_ne_zero (Nat.ne_of_gt (Nat.zero_lt_of_lt enough))
    have comma : ∀ s, skipSpace (',' :: s) = ',' :: s := fun _ => rfl
    have fewer : values.length < more := Nat.lt_of_succ_lt_succ enough
    rw [elements, List.append_assoc, List.cons_append, readElements, readText_quoted]
    · simp only [Option.bind_eq_bind, Option.bind_some, comma, ih next fewer, Option.map_some]
    · intro wrong
      cases wrong

theorem length_le_elements (values : List String) : values.length ≤ (elements values).length := by
  induction values with
  | nil => exact Nat.le_refl 0
  | cons value values ih =>
    cases values with
    | nil =>
      rw [elements, quoted]
      simp
    | cons next values =>
      rw [elements, List.length_append, List.length_cons]
      · have comma : (',' :: elements (next :: values)).length =
            (elements (next :: values)).length + 1 := List.length_cons
        omega
      · intro wrong
        cases wrong

/-- What is written is read back. -/
theorem unmarshal_marshal (values : List String) : unmarshal (marshal values) = some values := by
  cases values with
  | nil => rfl
  | cons value values =>
    have size := length_le_elements (value :: values)
    have read := @readElements_elements value values []
      ((elements (value :: values) ++ [']']).length + 1) (by
        rw [List.length_append]
        rw [List.length_cons] at size
        omega)
    obtain ⟨s, begins⟩ : ∃ s, elements (value :: values) ++ [']'] = '"' :: s := by
      cases values with
      | nil => exact ⟨_, rfl⟩
      | cons next values => exact ⟨_, rfl⟩
    rw [begins] at read
    rw [unmarshal, marshal, String.toList_ofList, List.cons_append, begins]
    change readArray ('"' :: s) = some (value :: values)
    rw [readArray]
    change (match readElements (('"' :: s).length + 1) ('"' :: s) with
      | some (values, s) => if skipSpace s = [] then some values else none
      | none => none) = some (value :: values)
    rw [read]
    rfl

end JsonTexts
