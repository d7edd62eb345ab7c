import CertMate.LineTexts

/-!
# The file `.env`

`trim_whitespace`, `decode_env_value`, `parse_env_file`, `write_env_value` and
`write_admin_credentials` of `scripts/deploy.sh`. The script sets no locale, and what is blank
depends on the locale it finds. The ranges of a bracket, such as `A-Z`, are those of ASCII,
and a text has no NUL.
-/
namespace EnvFile
open LineTexts

abbrev Text := List Char

/-- The blanks of ASCII. -/
def asciiSpace (c : Char) : Bool := c = ' ' || (9 ≤ c.toNat && c.toNat ≤ 13)

/-- `[A-Za-z_]`. -/
def identStart (c : Char) : Bool := c.isAlpha || c = '_'

/-- `[A-Za-z0-9_]`. -/
def identRune (c : Char) : Bool := c.isAlphanum || c = '_'

def singleQuote : Char := Char.ofNat 39

def doubleQuote : Char := Char.ofNat 34

section Texts
variable {table : List (Text × Text)} {key value : Text}

/-- An identifier. -/
structure Ident (key : Text) : Prop where
  start : key.head?.any identStart
  runes : ∀ c ∈ key, identRune c = true

theorem ident_of_all {key : Text} (h : (key.head?.any identStart && key.all identRune) = true) :
    Ident key := by
  rw [Bool.and_eq_true] at h
  exact ⟨h.1, List.all_eq_true.mp h.2⟩

theorem ident_ascii {c : Char} (h : identRune c = true) : c.toNat < 128 := by
  simp only [identRune, Char.isAlphanum, Char.isAlpha, Char.isUpper, Char.isLower, Char.isDigit,
    Bool.or_eq_true, Bool.and_eq_true, decide_eq_true_eq] at h
  rcases h with ((⟨-, below⟩ | ⟨-, below⟩) | ⟨-, below⟩) | rfl
  · exact lt_of_le_of_lt (UInt32.le_iff_toNat_le.mp below) (by decide)
  · exact lt_of_le_of_lt (UInt32.le_iff_toNat_le.mp below) (by decide)
  · exact lt_of_le_of_lt (UInt32.le_iff_toNat_le.mp below) (by decide)
  · decide

theorem ident_not_asciiSpace {c : Char} (h : identRune c = true) : asciiSpace c = false := by
  have all : ∀ n : Fin 128, identRune (Char.ofNat n) = true → asciiSpace (Char.ofNat n) = false := by
    decide +kernel
  have here := all ⟨c.toNat, ident_ascii h⟩
  rw [Char.ofNat_toNat] at here
  exact here h

theorem Ident.nonempty {key : Text} (h : Ident key) : key ≠ [] := by
  rintro rfl
  exact absurd h.start (by simp)

/-- `key=value`. -/
def setting (key value : Text) : Text := key ++ '=' :: value

theorem not_mem_setting {c : Char} (ident : Ident key) (plain : c ∉ value)
    (odd : identRune c = false) (other : c ≠ '=') : c ∉ setting key value := by
  intro there
  rcases List.mem_append.mp there with there | there
  · have rune := ident.runes c there
    rw [odd] at rune
    cases rune
  · rcases List.mem_cons.mp there with same | there
    · exact other same
    · exact plain there

structure Settings (table : List (Text × Text)) : Prop where
  idents : ∀ e ∈ table, Ident e.1
  plain : ∀ e ∈ table, '\n' ∉ e.2 ∧ '\r' ∉ e.2
  once : (table.map Prod.fst).Nodup

theorem Settings.lookup (h : Settings table) (found : table.lookup key = some value) :
    Ident key ∧ '\n' ∉ value ∧ '\r' ∉ value := by
  obtain ⟨l, l', parts, -⟩ := List.lookup_eq_some_iff.mp found
  have there : (key, value) ∈ table := by
    rw [parts]
    exact List.mem_append_right _ List.mem_cons_self
  exact ⟨h.idents _ there, h.plain _ there⟩

theorem mem_keys (given : table.lookup key = some value) : key ∈ table.map Prod.fst := by
  obtain ⟨l, l', rfl, -⟩ := List.lookup_eq_some_iff.mp given
  simp

theorem lookup_map (f : Text → Text → Text) (l : List (Text × Text)) (key : Text) :
    (l.map fun p => (p.1, f p.1 p.2)).lookup key = (l.lookup key).map (f key) := by
  induction l with
  | nil => rfl
  | cons p rest ih =>
    rw [List.map_cons, List.lookup_cons, List.lookup_cons, ih]
    by_cases own : key = p.1
    · simp [own]
    · have other : (key == p.1) = false := by simpa using own
      rw [other]

theorem lookup_filter (q : Text → Bool) (l : List (Text × Text)) (key : Text) :
    (l.filter fun e => q e.1).lookup key = if q key then l.lookup key else none := by
  induction l with
  | nil => simp
  | cons e rest ih =>
    obtain ⟨k, value⟩ := e
    rw [List.filter_cons]
    by_cases own : key = k
    · subst own
      by_cases kept : q key = true
      · simp [kept]
      · simp [kept, ih]
    · have other : (key == k) = false := by simpa using own
      by_cases kept : q k = true
      · simp [kept, List.lookup_cons, other, ih]
      · simp [kept, List.lookup_cons, other, ih]

/-- `replacement`, in the order of `order`. -/
def adminSettings (username passwordHash : Text) : List (Text × Text) :=
  [("ADMIN_USERNAME".toList, username), ("ADMIN_PASSWORD_HASH_FILE".toList, []),
    ("ADMIN_PASSWORD_HASH".toList, singleQuote :: passwordHash ++ [singleQuote]),
    ("ADMIN_PASSWORD_FILE".toList, []), ("ADMIN_PASSWORD".toList, [])]

def passwordSources : List Text :=
  ["ADMIN_PASSWORD_HASH_FILE".toList, "ADMIN_PASSWORD_HASH".toList, "ADMIN_PASSWORD_FILE".toList,
    "ADMIN_PASSWORD".toList]

def adminKeys : List Text := "ADMIN_USERNAME".toList :: passwordSources

/-- What the account is read as. -/
def adminValues (username passwordHash : Text) : List (Text × Text) :=
  [("ADMIN_USERNAME".toList, username), ("ADMIN_PASSWORD_HASH_FILE".toList, []),
    ("ADMIN_PASSWORD_HASH".toList, passwordHash), ("ADMIN_PASSWORD_FILE".toList, []),
    ("ADMIN_PASSWORD".toList, [])]

theorem adminValues_source (username passwordHash : Text) {source : Text}
    (there : source ∈ passwordSources) : (adminValues username passwordHash).lookup source =
      some (if source = "ADMIN_PASSWORD_HASH".toList then passwordHash else []) := by
  simp only [passwordSources, List.mem_cons, List.not_mem_nil, or_false] at there
  rcases there with rfl | rfl | rfl | rfl
  · rfl
  · rfl
  · rfl
  · rfl

/-- The password is left where the hash is. -/
theorem adminValues_left {username passwordHash : Text} (some_ : passwordHash ≠ [])
    {source : Text} (there : source ∈ passwordSources) (old : Option Text) :
    (∃ value, ((adminValues username passwordHash).lookup source).or old = some value ∧
      value ≠ []) ↔ source = "ADMIN_PASSWORD_HASH".toList := by
  rw [adminValues_source username passwordHash there]
  by_cases own : source = "ADMIN_PASSWORD_HASH".toList
  · rw [if_pos own]
    exact iff_of_true ⟨passwordHash, rfl, some_⟩ own
  · rw [if_neg own]
    refine iff_of_false ?_ own
    rintro ⟨value, same, nonempty⟩
    exact nonempty (Option.some.inj same).symm

/-- `[A-Za-z0-9./$]`. -/
def valueRune (c : Char) : Bool := c.isAlphanum || c = '.' || c = '/' || c = '$'

/-- `[A-Za-z0-9._@-]`. -/
def usernameRune (c : Char) : Bool := c.isAlphanum || c = '.' || c = '_' || c = '@' || c = '-'

theorem rune_ascii {c : Char} (h : valueRune c = true ∨ usernameRune c = true) :
    c.toNat < 128 := by
  simp only [valueRune, usernameRune, Bool.or_eq_true, decide_eq_true_eq] at h
  have alphanum : c.isAlphanum = true → c.toNat < 128 := by
    intro rune
    apply ident_ascii
    rw [identRune, rune, Bool.true_or]
  rcases h with (((rune | rfl) | rfl) | rfl) | ((((rune | rfl) | rfl) | rfl) | rfl)
  · exact alphanum rune
  · decide
  · decide
  · decide
  · exact alphanum rune
  · decide
  · decide
  · decide
  · decide

/-- A text and what it stands for. -/
inductive Written : Text → Text → Prop
  | plain {value : Text} (runes : ∀ c ∈ value, valueRune c = true) : Written value value
  | quoted {value : Text} (runes : ∀ c ∈ value, valueRune c = true) :
      Written (singleQuote :: value ++ [singleQuote]) value

end Texts

/-- What the two programs take from their locale: `[[:space:]]` of bash and of awk, and
`${#value}`, which counts characters or bytes. In every locale the characters of ASCII are
what they are. -/
class LcCtype where
  space : Char → Bool
  awkSpace : Char → Bool
  size : Text → Nat
  space_ascii : ∀ c : Char, c.toNat < 128 → space c = asciiSpace c
  awkSpace_ascii : ∀ c : Char, c.toNat < 128 → awkSpace c = asciiSpace c
  length_le_size : ∀ value : Text, value.length ≤ size value

open LcCtype

/-- The two programs agree on what is blank, as they do where both go by the locale. An awk
that matches bytes does not in UTF-8. -/
def Posix [LcCtype] : Prop := awkSpace = space

section Programs
variable [LcCtype]

def trimWhitespace (value : Text) : Text := trim space value

/-- What stands before the last `#` that has a space in front, of a value that is given
backwards: `^(.*[^[:space:]])[[:space:]]+#.*$`, whose group is as long as can be. -/
def beforeComment : Text → Option Text
  | [] => none
  | c :: rest =>
    if c = '#' ∧ rest.head?.any space ∧ rest.dropWhile space ≠ [] then
      some (rest.dropWhile space).reverse
    else beforeComment rest

def quotedBy (quote : Char) (value : Text) : Bool :=
  2 ≤ size value && value.head? = some quote && value.getLast? = some quote

def decodeEnvValue (raw : Text) : Text :=
  let value := trimWhitespace raw
  if quotedBy singleQuote value then (value.drop 1).dropLast
  else if quotedBy doubleQuote value then (value.drop 1).dropLast
  else (beforeComment value.reverse).getD value

/-- `${line%$'\r'}`, and `sub(/\r$/, "", line)`. -/
def stripCR (line : Text) : Text := if line.getLast? = some '\r' then line.dropLast else line

/-- `^[[:space:]]*$` or `^[[:space:]]*#`. -/
def skipped (line : Text) : Bool :=
  match line.dropWhile space with
  | [] => true
  | c :: _ => c = '#'

/-- `^[[:space:]]*([A-Za-z_][A-Za-z0-9_]*)[[:space:]]*=(.*)$`, with its groups. -/
def assignment (line : Text) : Option (Text × Text) :=
  let rest := line.dropWhile space
  let key := rest.takeWhile identRune
  if key.head?.any identStart then
    match (rest.dropWhile identRune).dropWhile space with
    | '=' :: raw => some (key, raw)
    | _ => none
  else none

/-- `ENV_KEY_LINES`, `ENV_RAW_VALUES` and `ENV_VALUES`. -/
structure Variables where
  keyLines : Text → Option Nat
  rawValues : Text → Option Text
  values : Text → Option Text

def Variables.empty : Variables := ⟨fun _ => none, fun _ => none, fun _ => none⟩

def Variables.assign (vars : Variables) (key raw : Text) (lineNumber : Nat) : Variables where
  keyLines := Function.update vars.keyLines key (some lineNumber)
  rawValues := Function.update vars.rawValues key (some (trimWhitespace raw))
  values := Function.update vars.values key (some (decodeEnvValue raw))

@[simp] theorem Variables.assign_keyLines (vars : Variables) (key raw : Text) (lineNumber : Nat) :
    (vars.assign key raw lineNumber).keyLines =
      Function.update vars.keyLines key (some lineNumber) := rfl

@[simp] theorem Variables.assign_values (vars : Variables) (key raw : Text) (lineNumber : Nat) :
    (vars.assign key raw lineNumber).values =
      Function.update vars.values key (some (decodeEnvValue raw)) := rfl

def duplicate (key : Text) (first second : Nat) : String :=
  ".env 中的 " ++ String.ofList key ++ " 重复定义（第 " ++ toString first ++ " 行和第 " ++
    toString second ++ " 行）。"

/-- One turn of the loop. A `die` ends the script. -/
def parseLine (vars : Variables) (numbered : Text × Nat) : Except String Variables :=
  let line := stripCR numbered.1
  if skipped line then .ok vars
  else
    match assignment line with
    | none => .ok vars
    | some (key, raw) =>
      match vars.keyLines key with
      | some first => .error (duplicate key first numbered.2)
      | none => .ok (vars.assign key raw numbered.2)

def parseEnvFile (file : Text) : Except String Variables :=
  ((records file).zipIdx 1).foldlM parseLine Variables.empty

/-- `"^[[:space:]]*" target "[[:space:]]*="`. -/
def assigns (target comparable : Text) : Bool :=
  let rest := comparable.dropWhile awkSpace
  target.isPrefixOf rest && ((rest.drop target.length).dropWhile awkSpace).head? = some '='

def writtenFile (key value file : Text) : Text :=
  let replacement := setting key value
  let found := (records file).any fun line => assigns key (stripCR line)
  let lines := (records file).map fun line =>
    if assigns key (stripCR line) then replacement else line
  ended (if found then lines else lines ++ [replacement])

/-- The file and what the script knows of it. -/
structure State where
  file : Text
  vars : Variables

def writeEnvValue (key value : Text) (s : State) : State where
  file := writtenFile key value s.file
  vars := { s.vars with
    rawValues := Function.update s.vars.rawValues key (some value)
    values := Function.update s.vars.values key (some (decodeEnvValue value)) }

/-- `^[[:space:]]*[A-Za-z_][A-Za-z0-9_]*[[:space:]]*=`. -/
def declares (comparable : Text) : Bool :=
  let rest := comparable.dropWhile awkSpace
  (rest.takeWhile identRune).head?.any identStart &&
    ((rest.dropWhile identRune).dropWhile awkSpace).head? = some '='

/-- `sub(/[[:space:]]*=.*$/, "", key)`: the first place where the pattern fits. -/
def cutValue : Text → Text
  | [] => []
  | c :: rest =>
    if ((c :: rest).dropWhile awkSpace).head? = some '=' then [] else c :: cutValue rest

/-- The key of a line for the second program. -/
def declared (line : Text) : Option Text :=
  let comparable := stripCR line
  if declares comparable then some (cutValue (comparable.dropWhile awkSpace)) else none

def adminFile (username passwordHash file : Text) : Text :=
  let replacement := adminSettings username passwordHash
  let lines := (records file).map fun line =>
    match (declared line).bind fun key => (replacement.lookup key).map (setting key) with
    | some setting => setting
    | none => line
  let written := fun key => (records file).any fun line => declared line = some key
  ended (lines ++ (replacement.filter fun e => !written e.1).map fun e => setting e.1 e.2)

/-- The file is in place before it is read again. -/
def writeAdminCredentials (username passwordHash : Text) (s : State) :
    Text × Except String Variables :=
  (adminFile username passwordHash s.file, parseEnvFile (adminFile username passwordHash s.file))

theorem ident_not_space {c : Char} (h : identRune c = true) : space c = false := by
  rw [space_ascii c (ident_ascii h), ident_not_asciiSpace h]

theorem ident_not_awkSpace {c : Char} (h : identRune c = true) : awkSpace c = false := by
  rw [awkSpace_ascii c (ident_ascii h), ident_not_asciiSpace h]

theorem space_not_ident {c : Char} (h : space c = true) : identRune c = false := by
  rw [Bool.eq_false_iff]
  intro rune
  rw [ident_not_space rune] at h
  cases h

theorem Ident.not_space {key : Text} (h : Ident key) {c : Char} (there : c ∈ key) :
    space c = false :=
  ident_not_space (h.runes c there)

/-- A line of an assignment, after its leading spaces. -/
theorem assignment_iff {line key raw : Text} : assignment line = some (key, raw) ↔
    Ident key ∧ ∃ rest, line.dropWhile space = key ++ rest ∧ rest.dropWhile space = '=' :: raw := by
  unfold assignment
  dsimp only
  constructor
  · intro h
    split at h
    · rename_i start
      split at h
      · rename_i found
        cases h
        refine ⟨⟨start, fun c there => ?_⟩, _, List.takeWhile_append_dropWhile.symm, found⟩
        exact List.all_eq_true.mp List.all_takeWhile c there
      · cases h
    · cases h
  · rintro ⟨ident, rest, parts, found⟩
    have stop : rest.takeWhile identRune = [] ∧ rest.dropWhile identRune = rest := by
      cases rest with
      | nil => exact ⟨rfl, rfl⟩
      | cons c rest =>
        have other : identRune c = false := by
          by_cases blank : space c = true
          · exact space_not_ident blank
          · rw [List.dropWhile_cons_of_neg blank] at found
            cases found
            decide
        simp [other]
    have taken : (key ++ rest).takeWhile identRune = key := by
      rw [List.takeWhile_append_of_pos ident.runes, stop.1, List.append_nil]
    have dropped : (key ++ rest).dropWhile identRune = rest := by
      rw [List.dropWhile_append_of_pos ident.runes, stop.2]
    rw [parts, taken, dropped, if_pos ident.start, found]
    rfl

/-- Blank lines and comments assign nothing. -/
theorem assignment_skipped {line : Text} (h : skipped line = true) : assignment line = none := by
  cases found : assignment line with
  | none => rfl
  | some pair =>
    obtain ⟨key, raw⟩ := pair
    obtain ⟨ident, rest, parts, -⟩ := assignment_iff.mp found
    obtain ⟨c, key', rfl⟩ := List.exists_cons_of_ne_nil ident.nonempty
    rw [skipped, parts, List.cons_append] at h
    have hash : c = '#' := by simpa using h
    have rune := ident.runes c List.mem_cons_self
    rw [hash] at rune
    exact absurd rune (by decide)

theorem assigns_iff (posix : Posix) {target line : Text} (ident : Ident target) :
    assigns target line = true ↔ (assignment line).map Prod.fst = some target := by
  unfold assigns
  dsimp only
  rw [posix, Bool.and_eq_true, List.isPrefixOf_iff_prefix, decide_eq_true_eq, Option.map_eq_some_iff]
  constructor
  · rintro ⟨⟨rest, parts⟩, found⟩
    rw [← parts, List.drop_left] at found
    obtain ⟨raw, found⟩ := List.head?_eq_some_iff.mp found
    exact ⟨(target, raw), assignment_iff.mpr ⟨ident, rest, parts.symm, found⟩, rfl⟩
  · rintro ⟨⟨key, raw⟩, found, same⟩
    cases same
    obtain ⟨-, rest, parts, found⟩ := assignment_iff.mp found
    refine ⟨⟨rest, parts.symm⟩, ?_⟩
    rw [parts, List.drop_left, found]
    rfl

theorem cutValue_append {key rest raw : Text} (runes : ∀ c ∈ key, identRune c = true)
    (found : rest.dropWhile awkSpace = '=' :: raw) : cutValue (key ++ rest) = key := by
  induction key with
  | nil =>
    cases rest with
    | nil => cases found
    | cons c rest => rw [List.nil_append, cutValue, if_pos (by rw [found]; rfl)]
  | cons c key ih =>
    have rune := runes c List.mem_cons_self
    have solid : ¬ awkSpace c = true := by simp [ident_not_awkSpace rune]
    have other : c ≠ '=' := by
      rintro rfl
      exact absurd rune (by decide)
    rw [List.cons_append, cutValue, if_neg,
      ih fun d there => runes d (List.mem_cons_of_mem _ there)]
    rw [List.dropWhile_cons_of_neg solid]
    simpa using other

/-- The key of a line, if it assigns one. -/
def keyOf (line : Text) : Option Text := (assignment (stripCR line)).map Prod.fst

/-- The second program finds the same keys. -/
theorem declared_eq (posix : Posix) (line : Text) : declared line = keyOf line := by
  unfold declared keyOf
  dsimp only
  have same : declares (stripCR line) = (assignment (stripCR line)).isSome := by
    unfold declares assignment
    dsimp only
    rw [posix]
    split
    · rename_i start
      rw [start, Bool.true_and]
      split
      · rename_i found
        rw [found]
        rfl
      · rename_i other
        cases rest : ((stripCR line |>.dropWhile space).dropWhile identRune).dropWhile space with
        | nil => rfl
        | cons c tail =>
          have differs : c ≠ '=' := by
            rintro rfl
            exact other _ rest
          simpa using differs
    · rename_i start
      simp [start]
  rw [same]
  cases found : assignment (stripCR line) with
  | none => rfl
  | some pair =>
    obtain ⟨key, raw⟩ := pair
    obtain ⟨ident, rest, parts, found⟩ := assignment_iff.mp found
    rw [posix, parts, cutValue_append ident.runes (by rw [posix, found])]
    rfl

/-- The assignments of the lines, in order. -/
def pairs (lines : List Text) : List (Text × Text) :=
  lines.filterMap fun line => assignment (stripCR line)

/-- What reading assignments makes of the variables. -/
structure Reads (vars : Variables) (assigned : List (Text × Text)) (vars' : Variables) : Prop where
  values : ∀ key, vars'.values key =
    ((assigned.lookup key).map decodeEnvValue).or (vars.values key)

section Parsing
variable {vars vars' : Variables} {lines : List Text} {line key raw : Text} {n : Nat}

theorem parseLine_none (h : assignment (stripCR line) = none) :
    parseLine vars (line, n) = .ok vars := by
  unfold parseLine
  dsimp only
  split
  · rfl
  · rw [h]

theorem parseLine_some (h : assignment (stripCR line) = some (key, raw)) :
    parseLine vars (line, n) =
      match vars.keyLines key with
      | some first => .error (duplicate key first n)
      | none => .ok (vars.assign key raw n) := by
  have there : ¬ skipped (stripCR line) = true := by
    intro blank
    rw [assignment_skipped blank] at h
    cases h
  unfold parseLine
  dsimp only
  rw [if_neg there, h]

theorem pairs_cons_none (h : assignment (stripCR line) = none) :
    pairs (line :: lines) = pairs lines := by
  simp [pairs, h]

theorem pairs_cons_some (h : assignment (stripCR line) = some (key, raw)) :
    pairs (line :: lines) = (key, raw) :: pairs lines := by
  simp [pairs, h]

/-- A file in which no key comes twice is accepted. -/
theorem parse_ok (once : ((pairs lines).map Prod.fst).Nodup)
    (fresh : ∀ key ∈ (pairs lines).map Prod.fst, vars.keyLines key = none) :
    ∃ vars', (lines.zipIdx n).foldlM parseLine vars = .ok vars' ∧
      Reads vars (pairs lines) vars' := by
  induction lines generalizing n vars with
  | nil => exact ⟨vars, rfl, ⟨fun key => rfl⟩⟩
  | cons line rest ih =>
    rw [List.zipIdx_cons, List.foldlM_cons]
    cases found : assignment (stripCR line) with
    | none =>
      rw [pairs_cons_none found] at once fresh ⊢
      rw [parseLine_none found]
      exact ih once fresh
    | some pair =>
      obtain ⟨key, raw⟩ := pair
      rw [pairs_cons_some found] at once fresh ⊢
      rw [List.map_cons, List.nodup_cons] at once
      rw [parseLine_some found, fresh key List.mem_cons_self]
      have later : ∀ k ∈ (pairs rest).map Prod.fst, (vars.assign key raw n).keyLines k = none := by
        intro k there
        have away : k ≠ key := by
          rintro rfl
          exact once.1 there
        rw [Variables.assign_keyLines, Function.update_of_ne away]
        exact fresh k (List.mem_cons_of_mem _ there)
      obtain ⟨vars', parsed, reads⟩ := ih (n := n + 1) once.2 later
      refine ⟨vars', parsed, ⟨fun k => ?_⟩⟩
      rw [reads.values k]
      by_cases own : k = key
      · subst own
        have absent : (pairs rest).lookup k = none := by
          rw [List.lookup_eq_none_iff]
          intro p there
          have other : k ≠ p.1 := by
            intro same
            have again : p.1 ∈ (pairs rest).map Prod.fst := List.mem_map_of_mem there
            rw [← same] at again
            exact once.1 again
          simpa using other
        rw [absent, List.lookup_cons_self]
        simp
      · have skip : List.lookup k ((key, raw) :: pairs rest) = (pairs rest).lookup k := by
          have other : (k == key) = false := by simpa using own
          simp [List.lookup_cons, other]
        rw [skip, Variables.assign_values, Function.update_of_ne own]

/-- In an accepted file no key comes twice. -/
theorem parse_once (h : (lines.zipIdx n).foldlM parseLine vars = .ok vars') :
    ((pairs lines).map Prod.fst).Nodup ∧
      ∀ key ∈ (pairs lines).map Prod.fst, vars.keyLines key = none := by
  induction lines generalizing n vars with
  | nil => exact ⟨List.nodup_nil, fun _ there => nomatch there⟩
  | cons line rest ih =>
    rw [List.zipIdx_cons, List.foldlM_cons] at h
    cases found : assignment (stripCR line) with
    | none =>
      rw [parseLine_none found] at h
      rw [pairs_cons_none found]
      exact ih h
    | some pair =>
      obtain ⟨key, raw⟩ := pair
      rw [parseLine_some found] at h
      rw [pairs_cons_some found, List.map_cons, List.nodup_cons]
      cases known : vars.keyLines key with
      | some first =>
        rw [known] at h
        cases h
      | none =>
        rw [known] at h
        obtain ⟨once, fresh⟩ := ih (n := n + 1) h
        have away : ∀ k ∈ (pairs rest).map Prod.fst, k ≠ key := by
          rintro k there rfl
          have empty := fresh k there
          rw [Variables.assign_keyLines, Function.update_self] at empty
          cases empty
        refine ⟨⟨fun there => away key there rfl, once⟩, ?_⟩
        intro k there
        rcases List.mem_cons.mp there with rfl | there
        · exact known
        · have free := fresh k there
          rwa [Variables.assign_keyLines, Function.update_of_ne (away k there)] at free

/-- The values of an accepted file. -/
theorem parseEnvFile_values {file : Text} (h : parseEnvFile file = .ok vars) (key : Text) :
    vars.values key = ((pairs (records file)).lookup key).map decodeEnvValue := by
  obtain ⟨once, fresh⟩ := parse_once h
  obtain ⟨vars', parsed, reads⟩ := parse_ok (n := 1) once fresh
  have same : vars' = vars := Except.ok.inj (parsed.symm.trans h)
  rw [← same, reads.values key]
  exact Option.or_none

end Parsing

/-- Lines with the settings of a table in the place of those of the same keys. -/
def replaced (table : List (Text × Text)) (line : Text) : Text :=
  match (keyOf line).bind fun key => (table.lookup key).map (setting key) with
  | some setting => setting
  | none => line

/-- The settings whose keys have no line come at the end. -/
def rewrite (table : List (Text × Text)) (lines : List Text) : List Text :=
  lines.map (replaced table) ++
    (table.filter fun e => !lines.any fun line => keyOf line = some e.1).map fun e =>
      setting e.1 e.2

/-- The line is about none of the keys. -/
def unrelated (keys : List Text) (line : Text) : Bool := !(keyOf line).any fun key => key ∈ keys

section Rewriting
variable {table : List (Text × Text)} {key value line : Text}

theorem assignment_setting (ident : Ident key) (plain : '\r' ∉ value) :
    assignment (stripCR (setting key value)) = some (key, value) := by
  have whole : stripCR (setting key value) = setting key value := by
    rw [stripCR, if_neg]
    intro last
    exact not_mem_setting ident plain (by decide) (by decide) (List.mem_of_getLast? last)
  rw [whole, assignment_iff]
  refine ⟨ident, '=' :: value, ?_, ?_⟩
  · apply dropWhile_eq_self
    intro c first
    obtain ⟨k, rest, rfl⟩ := List.exists_cons_of_ne_nil ident.nonempty
    rw [setting, List.cons_append, List.head?_cons, Option.some.injEq] at first
    subst first
    exact ident.not_space List.mem_cons_self
  · have solid : space '=' = false := by
      rw [space_ascii _ (by decide)]
      decide
    exact List.dropWhile_cons_of_neg (by simp [solid])

theorem keyOf_setting (ident : Ident key) (plain : '\r' ∉ value) :
    keyOf (setting key value) = some key := by
  rw [keyOf, assignment_setting ident plain]
  rfl

theorem assignment_replaced (h : Settings table) (line : Text) :
    assignment (stripCR (replaced table line)) =
      (assignment (stripCR line)).map fun p => (p.1, (table.lookup p.1).getD p.2) := by
  unfold replaced
  cases found : assignment (stripCR line) with
  | none =>
    rw [keyOf, found]
    exact found
  | some pair =>
    obtain ⟨key, raw⟩ := pair
    rw [keyOf, found]
    cases given : table.lookup key with
    | none =>
      dsimp only [Option.map_some, Option.bind_some, Option.map_none]
      rw [given]
      exact found
    | some value =>
      obtain ⟨ident, -, plain⟩ := h.lookup given
      dsimp only [Option.map_some, Option.bind_some]
      rw [given]
      exact assignment_setting ident plain

theorem pairs_rewrite (h : Settings table) (lines : List Text) :
    pairs (rewrite table lines) =
      ((pairs lines).map fun p => (p.1, (table.lookup p.1).getD p.2)) ++
        table.filter fun e => !lines.any fun line => keyOf line = some e.1 := by
  have added : ∀ l : List (Text × Text), (∀ e ∈ l, e ∈ table) →
      pairs (l.map fun e => setting e.1 e.2) = l := by
    intro l inside
    induction l with
    | nil => rfl
    | cons e rest ih =>
      have there := inside e List.mem_cons_self
      rw [List.map_cons,
        pairs_cons_some (assignment_setting (h.idents e there) (h.plain e there).2),
        ih fun x hx => inside x (List.mem_cons_of_mem _ hx)]
  have changed : pairs (lines.map (replaced table)) =
      (pairs lines).map fun p => (p.1, (table.lookup p.1).getD p.2) := by
    unfold pairs
    rw [List.filterMap_map, List.map_filterMap]
    apply List.filterMap_congr
    intro line _
    exact assignment_replaced h line
  have split : pairs (rewrite table lines) = pairs (lines.map (replaced table)) ++
      pairs ((table.filter fun e => !lines.any fun line => keyOf line = some e.1).map fun e =>
        setting e.1 e.2) :=
    List.filterMap_append
  rw [split, changed, added _ fun e there => List.mem_of_mem_filter there]

/-- The keys that have a line. -/
theorem any_keyOf_iff (lines : List Text) (key : Text) :
    (lines.any fun line => keyOf line = some key) = true ↔ key ∈ (pairs lines).map Prod.fst := by
  simp only [List.any_eq_true, decide_eq_true_eq, pairs, List.mem_map, List.mem_filterMap, keyOf,
    Option.map_eq_some_iff]
  constructor
  · rintro ⟨line, there, pair, found, rfl⟩
    exact ⟨pair, ⟨line, there, found⟩, rfl⟩
  · rintro ⟨pair, ⟨line, there, found⟩, rfl⟩
    exact ⟨line, there, pair, found, rfl⟩

/-- The settings of the table come before what was there. -/
theorem lookup_rewrite (h : Settings table) (lines : List Text) (key : Text) :
    (pairs (rewrite table lines)).lookup key =
      (table.lookup key).or ((pairs lines).lookup key) := by
  rw [pairs_rewrite h, List.lookup_append,
    lookup_map (fun key raw => (table.lookup key).getD raw),
    lookup_filter fun key => !lines.any fun line => keyOf line = some key]
  cases given : table.lookup key with
  | none => cases (pairs lines).lookup key <;> simp
  | some value =>
    cases known : (pairs lines).lookup key with
    | some raw => rfl
    | none =>
      have absent : (lines.any fun line => keyOf line = some key) = false := by
        rw [Bool.eq_false_iff]
        intro there
        obtain ⟨p, inside, own⟩ := List.mem_map.mp ((any_keyOf_iff lines key).mp there)
        have missed := List.lookup_eq_none_iff.mp known p inside
        simp [own] at missed
      simp [absent]

theorem once_rewrite (h : Settings table) {lines : List Text}
    (once : ((pairs lines).map Prod.fst).Nodup) :
    ((pairs (rewrite table lines)).map Prod.fst).Nodup := by
  have keys : ((pairs lines).map fun p => (p.1, (table.lookup p.1).getD p.2)).map Prod.fst =
      (pairs lines).map Prod.fst := by
    rw [List.map_map]
    rfl
  rw [pairs_rewrite h, List.map_append, keys, List.nodup_append]
  refine ⟨once, h.once.sublist (List.filter_sublist.map _), ?_⟩
  intro k there k' there' same
  subst same
  obtain ⟨e, kept, rfl⟩ := List.mem_map.mp there'
  have missing := (List.mem_filter.mp kept).2
  rw [(any_keyOf_iff lines e.1).mpr there] at missing
  cases missing

theorem whole_rewrite (h : Settings table) {lines : List Text}
    (whole : ∀ line ∈ lines, '\n' ∉ line) : ∀ line ∈ rewrite table lines, '\n' ∉ line := by
  have one : ∀ key value, table.lookup key = some value → '\n' ∉ setting key value := by
    intro key value given
    obtain ⟨ident, plain, -⟩ := h.lookup given
    exact not_mem_setting ident plain (by decide) (by decide)
  intro line there
  rcases List.mem_append.mp there with there | there
  · obtain ⟨old, inside, rfl⟩ := List.mem_map.mp there
    unfold replaced
    split
    · rename_i new found
      obtain ⟨key, -, made⟩ := Option.bind_eq_some_iff.mp found
      obtain ⟨value, given, rfl⟩ := Option.map_eq_some_iff.mp made
      exact one key value given
    · exact whole old inside
  · obtain ⟨e, kept, rfl⟩ := List.mem_map.mp there
    have inside := List.mem_of_mem_filter kept
    exact not_mem_setting (h.idents e inside) (h.plain e inside).1 (by decide) (by decide)

/-- An accepted file with new settings is accepted, with their values. -/
theorem rewrite_parsed (h : Settings table) {file : Text} {vars : Variables}
    (accepted : parseEnvFile file = .ok vars) :
    ∃ vars', parseEnvFile (ended (rewrite table (records file))) = .ok vars' ∧
      ∀ key, vars'.values key =
        ((table.lookup key).map decodeEnvValue).or (vars.values key) := by
  have lines := records_ended (whole_rewrite h fun line => @not_mem_of_records file line)
  have once := once_rewrite h (parse_once accepted).1
  have fresh : ∀ key ∈ (pairs (rewrite table (records file))).map Prod.fst,
      Variables.empty.keyLines key = none := fun _ _ => rfl
  obtain ⟨vars', parsed, -⟩ := parse_ok (n := 1) once fresh
  have read : parseEnvFile (ended (rewrite table (records file))) = .ok vars' := by
    rw [parseEnvFile, lines]
    exact parsed
  refine ⟨vars', read, fun key => ?_⟩
  rw [parseEnvFile_values read, parseEnvFile_values accepted, lines, lookup_rewrite h]
  cases table.lookup key <;> rfl

theorem unrelated_setting (ident : Ident key) (plain : '\r' ∉ value)
    (given : key ∈ table.map Prod.fst) :
    unrelated (table.map Prod.fst) (setting key value) = false := by
  rw [unrelated, keyOf_setting ident plain]
  simpa using given

theorem filter_replaced (h : Settings table) (lines : List Text) :
    (lines.map (replaced table)).filter (unrelated (table.map Prod.fst)) =
      lines.filter (unrelated (table.map Prod.fst)) := by
  induction lines with
  | nil => rfl
  | cons line rest ih =>
    rw [List.map_cons, List.filter_cons, List.filter_cons, ih]
    cases found : (keyOf line).bind fun key => (table.lookup key).map (setting key) with
    | none =>
      have same : replaced table line = line := by simp [replaced, found]
      rw [same]
    | some new =>
      obtain ⟨key, own, made⟩ := Option.bind_eq_some_iff.mp found
      obtain ⟨value, given, rfl⟩ := Option.map_eq_some_iff.mp made
      obtain ⟨ident, -, plain⟩ := h.lookup given
      have changed : replaced table line = setting key value := by simp [replaced, found]
      have before : unrelated (table.map Prod.fst) line = false := by
        rw [unrelated, own]
        simpa using mem_keys given
      rw [changed, unrelated_setting ident plain (mem_keys given), before]
      rfl

/-- The other lines are what they were, in their order. -/
theorem rewrite_keeps (h : Settings table) (lines : List Text) :
    (rewrite table lines).filter (unrelated (table.map Prod.fst)) =
      lines.filter (unrelated (table.map Prod.fst)) := by
  have added : ((table.filter fun e => !lines.any fun line => keyOf line = some e.1).map fun e =>
      setting e.1 e.2).filter (unrelated (table.map Prod.fst)) = [] := by
    rw [List.filter_eq_nil_iff]
    intro line there
    obtain ⟨e, kept, rfl⟩ := List.mem_map.mp there
    have inside := List.mem_of_mem_filter kept
    have related := unrelated_setting (h.idents e inside) (h.plain e inside).2
      (List.mem_map_of_mem inside)
    simp [related]
  rw [rewrite, List.filter_append, added, filter_replaced h, List.append_nil]

end Rewriting

theorem writtenFile_eq (posix : Posix) {key : Text} (ident : Ident key) (value file : Text) :
    writtenFile key value file = ended (rewrite [(key, value)] (records file)) := by
  have own : ∀ line, assigns key (stripCR line) = decide (keyOf line = some key) := by
    intro line
    rw [Bool.eq_iff_iff, assigns_iff posix ident, decide_eq_true_eq]
    rfl
  have one : ∀ line, (if assigns key (stripCR line) = true then setting key value else line) =
      replaced [(key, value)] line := by
    intro line
    rw [own line]
    unfold replaced
    cases keyOf line with
    | none => rfl
    | some k =>
      by_cases same : k = key
      · simp [same]
      · simp [same]
  have lines : ((records file).map fun line =>
      if assigns key (stripCR line) = true then setting key value else line) =
        (records file).map (replaced [(key, value)]) :=
    List.map_congr_left fun line _ => one line
  unfold writtenFile rewrite
  dsimp only
  rw [lines]
  simp only [own]
  cases found : (records file).any fun line => decide (keyOf line = some key) with
  | true => simp [found]
  | false => simp [found]

theorem adminFile_eq (posix : Posix) (username passwordHash file : Text) :
    adminFile username passwordHash file =
      ended (rewrite (adminSettings username passwordHash) (records file)) := by
  have same : declared = keyOf := funext (declared_eq posix)
  unfold adminFile rewrite replaced
  rw [same]

/-- Nothing that `decode_env_value` looks for. -/
def solid (c : Char) : Bool := !space c && c ≠ singleQuote && c ≠ doubleQuote && c ≠ '#'

theorem solid_of_rune {c : Char} (h : valueRune c = true ∨ usernameRune c = true) :
    solid c = true := by
  have all : ∀ n : Fin 128, valueRune (Char.ofNat n) = true ∨ usernameRune (Char.ofNat n) = true →
      (!asciiSpace (Char.ofNat n) && Char.ofNat n ≠ singleQuote && Char.ofNat n ≠ doubleQuote &&
        Char.ofNat n ≠ '#') = true := by
    decide +kernel
  have here := all ⟨c.toNat, rune_ascii h⟩
  rw [Char.ofNat_toNat] at here
  rw [solid, space_ascii c (rune_ascii h)]
  exact here h

/-- A character of ASCII that is not solid in one locale is so in none. -/
theorem not_solid {c : Char} (small : c.toNat < 128)
    (odd : (!asciiSpace c && c ≠ singleQuote && c ≠ doubleQuote && c ≠ '#') = false) :
    solid c = false := by
  rw [solid, space_ascii c small]
  exact odd

theorem solid_not_space {c : Char} (h : solid c = true) : space c = false := by
  simp only [solid, Bool.and_eq_true, Bool.not_eq_true'] at h
  exact h.1.1.1

theorem trimWhitespace_eq_self {value : Text}
    (h : ∀ c ∈ value, space c = false) : trimWhitespace value = value :=
  trim_eq_self (fun c first => h c (List.mem_of_head? first))
    fun c last => h c (List.mem_of_getLast? last)

theorem beforeComment_none {value : Text} (h : '#' ∉ value) : beforeComment value = none := by
  induction value with
  | nil => rfl
  | cons c rest ih =>
    rw [beforeComment, if_neg]
    · exact ih fun there => h (List.mem_cons_of_mem _ there)
    · rintro ⟨rfl, -⟩
      exact h List.mem_cons_self

theorem decodeEnvValue_solid {value : Text} (h : ∀ c ∈ value, solid c = true) :
    decodeEnvValue value = value := by
  have bare := trimWhitespace_eq_self fun c there => solid_not_space (h c there)
  have unquoted : ∀ quote, solid quote = false → quotedBy quote value = false := by
    intro quote odd
    rw [Bool.eq_false_iff]
    intro quoted
    simp only [quotedBy, Bool.and_eq_true, decide_eq_true_eq] at quoted
    have rune := h quote (List.mem_of_head? quoted.1.2)
    rw [odd] at rune
    cases rune
  have uncommented : '#' ∉ value.reverse := by
    intro there
    have rune := h _ (List.mem_reverse.mp there)
    rw [not_solid (by decide) (by decide)] at rune
    cases rune
  unfold decodeEnvValue
  dsimp only
  rw [bare, unquoted singleQuote (not_solid (by decide) (by decide)),
    unquoted doubleQuote (not_solid (by decide) (by decide)), beforeComment_none uncommented]
  rfl

theorem decodeEnvValue_quoted {value : Text} (h : ∀ c ∈ value, solid c = true) :
    decodeEnvValue (singleQuote :: value ++ [singleQuote]) = value := by
  have bare : trimWhitespace (singleQuote :: value ++ [singleQuote]) =
      singleQuote :: value ++ [singleQuote] := by
    apply trimWhitespace_eq_self
    intro c there
    simp only [List.cons_append, List.mem_cons, List.mem_append, List.not_mem_nil,
      or_false] at there
    have quote : space singleQuote = false := by
      rw [space_ascii _ (by decide)]
      decide
    rcases there with rfl | there | rfl
    · exact quote
    · exact solid_not_space (h c there)
    · exact quote
  have quoted : quotedBy singleQuote (singleQuote :: value ++ [singleQuote]) = true := by
    have last : (singleQuote :: value ++ [singleQuote]).getLast? = some singleQuote :=
      List.getLast?_concat
    have two : 2 ≤ size (singleQuote :: value ++ [singleQuote]) :=
      le_trans (by simp) (length_le_size _)
    rw [quotedBy, last]
    simpa using two
  unfold decodeEnvValue
  dsimp only
  rw [bare, if_pos quoted]
  simp

theorem Written.decoded {value decoded : Text} (h : Written value decoded) :
    decodeEnvValue value = decoded := by
  cases h with
  | plain runes => exact decodeEnvValue_solid fun c there => solid_of_rune (Or.inl (runes c there))
  | quoted runes =>
    exact decodeEnvValue_quoted fun c there => solid_of_rune (Or.inl (runes c there))

theorem not_mem_solid {value : Text} {c : Char} (h : ∀ c ∈ value, solid c = true)
    (odd : solid c = false) : c ∉ value := by
  intro there
  have rune := h c there
  rw [odd] at rune
  cases rune

theorem Written.not_mem {value decoded : Text} (h : Written value decoded) {c : Char}
    (odd : solid c = false) (other : c ≠ singleQuote) : c ∉ value := by
  cases h with
  | plain runes => exact not_mem_solid (fun c there => solid_of_rune (Or.inl (runes c there))) odd
  | quoted runes =>
    have inside := not_mem_solid (fun c there => solid_of_rune (Or.inl (runes c there))) odd
    simp [inside, other]

theorem Written.plain_ends {value decoded : Text} (h : Written value decoded) :
    '\n' ∉ value ∧ '\r' ∉ value := by
  constructor
  · exact h.not_mem (not_solid (by decide) (by decide)) (by decide)
  · exact h.not_mem (not_solid (by decide) (by decide)) (by decide)

/-- The lines that are about none of the keys are the same, in the same order. -/
def Keeps (keys : List Text) (file file' : Text) : Prop :=
  (records file').filter (unrelated keys) = (records file).filter (unrelated keys)

theorem keeps_rewrite {table : List (Text × Text)} (h : Settings table) (file : Text) :
    Keeps (table.map Prod.fst) file (ended (rewrite table (records file))) := by
  rw [Keeps, records_ended (whole_rewrite h fun line => @not_mem_of_records file line)]
  exact rewrite_keeps h _

theorem settings_single {key value decoded : Text} (ident : Ident key)
    (written : Written value decoded) : Settings [(key, value)] := by
  constructor
  · intro e there
    rw [List.mem_singleton.mp there]
    exact ident
  · intro e there
    rw [List.mem_singleton.mp there]
    exact written.plain_ends
  · exact List.nodup_singleton _

section Admin
variable {username passwordHash : Text}

theorem settings_admin (name : ∀ c ∈ username, usernameRune c = true)
    (hash : ∀ c ∈ passwordHash, valueRune c = true) :
    Settings (adminSettings username passwordHash) := by
  have idents : adminKeys.all
      (fun key => key.head?.any identStart && key.all identRune) = true := by
    decide +kernel
  have solid_ := fun c there => solid_of_rune (Or.inr (name c there))
  have quoted : Written (singleQuote :: passwordHash ++ [singleQuote]) passwordHash := .quoted hash
  constructor
  · intro e there
    have key : e.1 ∈ adminKeys := List.mem_map_of_mem (f := Prod.fst) there
    exact ident_of_all (List.all_eq_true.mp idents e.1 key)
  · intro e there
    simp only [adminSettings, List.mem_cons, List.not_mem_nil, or_false] at there
    rcases there with rfl | rfl | rfl | rfl | rfl
    · exact ⟨not_mem_solid solid_ (not_solid (by decide) (by decide)),
        not_mem_solid solid_ (not_solid (by decide) (by decide))⟩
    · exact ⟨List.not_mem_nil, List.not_mem_nil⟩
    · exact quoted.plain_ends
    · exact ⟨List.not_mem_nil, List.not_mem_nil⟩
    · exact ⟨List.not_mem_nil, List.not_mem_nil⟩
  · change adminKeys.Nodup
    decide +kernel

theorem admin_decoded (name : ∀ c ∈ username, usernameRune c = true)
    (hash : ∀ c ∈ passwordHash, valueRune c = true) (key : Text) :
    ((adminSettings username passwordHash).lookup key).map decodeEnvValue =
      (adminValues username passwordHash).lookup key := by
  have user : decodeEnvValue username = username :=
    decodeEnvValue_solid fun c there => solid_of_rune (Or.inr (name c there))
  have quoted : decodeEnvValue (singleQuote :: passwordHash ++ [singleQuote]) = passwordHash :=
    (Written.quoted hash).decoded
  have empty : decodeEnvValue [] = [] := (Written.plain fun _ inside => by cases inside).decoded
  have values : adminValues username passwordHash =
      (adminSettings username passwordHash).map fun p => (p.1, decodeEnvValue p.2) := by
    simp only [adminSettings, adminValues, List.map_cons, List.map_nil, user, quoted, empty]
  rw [values, lookup_map fun _ => decodeEnvValue]

end Admin

section Files
variable {file : Text} {vars : Variables}

theorem written_value (posix : Posix) (accepted : parseEnvFile file = .ok vars)
    {key value decoded : Text}
    (ident : Ident key) (written : Written value decoded) :
    ∃ vars', parseEnvFile (writtenFile key value file) = .ok vars' ∧
      vars'.values = Function.update vars.values key (some decoded) ∧
      Keeps [key] file (writtenFile key value file) := by
  have table := settings_single ident written
  obtain ⟨vars', parsed, values⟩ := rewrite_parsed table accepted
  rw [writtenFile_eq posix ident]
  refine ⟨vars', parsed, ?_, keeps_rewrite table file⟩
  funext k
  rw [values k]
  by_cases own : k = key
  · subst own
    simp [written.decoded]
  · have other : (k == key) = false := by simpa using own
    rw [Function.update_of_ne own]
    simp [other]

theorem written_admin (posix : Posix) (accepted : parseEnvFile file = .ok vars)
    {username passwordHash : Text}
    (name : ∀ c ∈ username, usernameRune c = true)
    (hash : ∀ c ∈ passwordHash, valueRune c = true) :
    ∃ vars', parseEnvFile (adminFile username passwordHash file) = .ok vars' ∧
      (∀ key, vars'.values key =
        ((adminValues username passwordHash).lookup key).or (vars.values key)) ∧
      Keeps adminKeys file (adminFile username passwordHash file) := by
  have table := settings_admin name hash
  obtain ⟨vars', parsed, values⟩ := rewrite_parsed table accepted
  rw [adminFile_eq posix]
  refine ⟨vars', parsed, fun key => ?_, keeps_rewrite table file⟩
  rw [values key, admin_decoded name hash]

/-- An accepted file stays accepted, with new values for the intended keys and all else as
it was; of the sources of the password one is left. -/
theorem env_rewritten (posix : Posix) (accepted : parseEnvFile file = .ok vars) :
    (∀ key value decoded, Ident key → Written value decoded → ∃ vars',
      parseEnvFile (writeEnvValue key value ⟨file, vars⟩).file = .ok vars' ∧
        vars'.values = Function.update vars.values key (some decoded) ∧
        (writeEnvValue key value ⟨file, vars⟩).vars.values = vars'.values ∧
        Keeps [key] file (writeEnvValue key value ⟨file, vars⟩).file) ∧
    ∀ username passwordHash, (∀ c ∈ username, usernameRune c = true) →
      (∀ c ∈ passwordHash, valueRune c = true) → passwordHash ≠ [] → ∃ vars',
        (writeAdminCredentials username passwordHash ⟨file, vars⟩).2 = .ok vars' ∧
          (∀ key, vars'.values key =
            ((adminValues username passwordHash).lookup key).or (vars.values key)) ∧
          (∀ source ∈ passwordSources, (∃ value, vars'.values source = some value ∧ value ≠ []) ↔
            source = "ADMIN_PASSWORD_HASH".toList) ∧
          Keeps adminKeys file (writeAdminCredentials username passwordHash ⟨file, vars⟩).1 := by
  constructor
  · intro key value decoded ident written
    obtain ⟨vars', parsed, values, keeps⟩ := written_value posix accepted ident written
    have known : (writeEnvValue key value ⟨file, vars⟩).vars.values =
        Function.update vars.values key (some (decodeEnvValue value)) := rfl
    rw [written.decoded] at known
    exact ⟨vars', parsed, values, known.trans values.symm, keeps⟩
  · intro username passwordHash name hash some_
    obtain ⟨vars', parsed, values, keeps⟩ := written_admin posix accepted name hash
    refine ⟨vars', parsed, values, fun source there => ?_, keeps⟩
    rw [values source]
    exact adminValues_left some_ there _

end Files

end Programs

/-- The blanks of Unicode but for those that do not break, as the C library has them. -/
def unicodeSpace (c : Char) : Bool :=
  asciiSpace c || c.toNat = 0x1680 || (0x2000 ≤ c.toNat && c.toNat ≤ 0x200a && c.toNat ≠ 0x2007) ||
    c.toNat = 0x2028 || c.toNat = 0x2029 || c.toNat = 0x205f || c.toNat = 0x3000

theorem unicodeSpace_ascii {c : Char} (small : c.toNat < 128) : unicodeSpace c = asciiSpace c := by
  have off : ∀ n, 128 ≤ n → ¬ c.toNat = n := fun n big => by omega
  have below : ¬ 0x2000 ≤ c.toNat := by omega
  simp [unicodeSpace, off, below]

/-- UTF-8, with an awk that knows it, or with one that matches bytes. -/
@[reducible]
def utf8Locale (aware : Bool) : LcCtype where
  space := unicodeSpace
  awkSpace := if aware then unicodeSpace else asciiSpace
  size := List.length
  space_ascii _ small := unicodeSpace_ascii small
  awkSpace_ascii c small := by
    cases aware with
    | true => exact unicodeSpace_ascii small
    | false => rfl
  length_le_size _ := le_refl _

section Sample

local instance sampleLocale : LcCtype := utf8Locale true

/-- A file with a comment, both ends of line, a blank that is not of ASCII, and no line feed
at its end. -/
def sampleFile : Text := "# secrets\r\nTZ=UTC # zone\n\u3000export=1\nAPP_PORT = \"80\"".toList

example : writtenFile "TZ".toList "'Asia/Shanghai'".toList sampleFile =
    "# secrets\r\nTZ='Asia/Shanghai'\n\u3000export=1\nAPP_PORT = \"80\"\n".toList := by
  decide +kernel

theorem sampleFile_accepted : ∃ vars, parseEnvFile sampleFile = .ok vars := by
  have once : ((pairs (records sampleFile)).map Prod.fst).Nodup := by decide +kernel
  have fresh : ∀ key ∈ (pairs (records sampleFile)).map Prod.fst,
      Variables.empty.keyLines key = none := fun _ _ => rfl
  obtain ⟨vars, parsed, -⟩ := parse_ok (n := 1) once fresh
  exact ⟨vars, parsed⟩

theorem sample_env_rewritten : ∃ vars vars', parseEnvFile sampleFile = .ok vars ∧
    parseEnvFile (writtenFile "TZ".toList "'Asia/Shanghai'".toList sampleFile) = .ok vars' ∧
    vars'.values = Function.update vars.values "TZ".toList (some "Asia/Shanghai".toList) := by
  have ident : Ident "TZ".toList := ident_of_all (by decide)
  have quoted : "'Asia/Shanghai'".toList =
      singleQuote :: "Asia/Shanghai".toList ++ [singleQuote] := by
    decide +kernel
  have written : Written "'Asia/Shanghai'".toList "Asia/Shanghai".toList := by
    rw [quoted]
    apply Written.quoted
    have runes : "Asia/Shanghai".toList.all valueRune = true := by decide +kernel
    exact List.all_eq_true.mp runes
  obtain ⟨vars, accepted⟩ := sampleFile_accepted
  obtain ⟨vars', parsed, values, -⟩ := (env_rewritten rfl accepted).1 _ _ _ ident written
  exact ⟨vars, vars', accepted, parsed, values⟩

end Sample

/-- Where the two programs differ, a key behind such a blank gets a second line. -/
example : (@parseEnvFile (utf8Locale false) "\u3000TZ=UTC".toList).isOk = true ∧
    (@parseEnvFile (utf8Locale false) (@writtenFile (utf8Locale false) "TZ".toList "UTC".toList
      "\u3000TZ=UTC".toList)).isOk = false := by
  decide +kernel

end EnvFile
