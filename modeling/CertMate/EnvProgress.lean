import CertMate.DeployScript

/-!
# What becomes of `.env`

The changes the deployment script makes to `.env`, what they leave as it was, and what the
script knows of a file that it does not read again.
-/
namespace EnvProgress
open LineTexts EnvFile EnvFile.LcCtype DeployScript

section Raw
variable [LcCtype] {vars vars' : Variables} {lines : List Text} {n : Nat}

theorem foldlM_raws (h : (lines.zipIdx n).foldlM parseLine vars = .ok vars') (key : Text) :
    vars'.rawValues key =
      (((pairs lines).lookup key).map trimWhitespace).or (vars.rawValues key) := by
  induction lines generalizing n vars with
  | nil =>
    cases h
    rfl
  | cons line rest ih =>
    have once := (parse_once h).1
    rw [List.zipIdx_cons, List.foldlM_cons] at h
    cases found : assignment (stripCR line) with
    | none =>
      rw [parseLine_none found] at h
      rw [pairs_cons_none found]
      exact ih h
    | some pair =>
      obtain ⟨k, raw⟩ := pair
      rw [parseLine_some found] at h
      rw [pairs_cons_some found, List.map_cons, List.nodup_cons] at once
      rw [pairs_cons_some found]
      cases known : vars.keyLines k with
      | some first =>
        rw [known] at h
        cases h
      | none =>
        rw [known] at h
        rw [ih h]
        by_cases own : key = k
        · subst own
          have absent : (pairs rest).lookup key = none := by
            rw [List.lookup_eq_none_iff]
            intro p there
            have other : key ≠ p.1 := by
              intro same
              have again : p.1 ∈ (pairs rest).map Prod.fst := List.mem_map_of_mem there
              rw [← same] at again
              exact once.1 again
            simpa using other
          simp [absent, Variables.assign]
        · have other : (key == k) = false := by simpa using own
          simp [List.lookup_cons, other, Variables.assign, Function.update_of_ne own]

theorem parseEnvFile_raws {file : Text} (h : parseEnvFile file = .ok vars) (key : Text) :
    vars.rawValues key = ((pairs (records file)).lookup key).map trimWhitespace := by
  rw [foldlM_raws h key]
  exact Option.or_none

theorem rewrite_raws {table : List (Text × Text)} (settings : Settings table) {file : Text}
    (before : parseEnvFile file = .ok vars)
    (after : parseEnvFile (ended (rewrite table (records file))) = .ok vars') (key : Text) :
    vars'.rawValues key = ((table.lookup key).map trimWhitespace).or (vars.rawValues key) := by
  have lines := records_ended (whole_rewrite settings fun line => @not_mem_of_records file line)
  rw [parseEnvFile_raws after, parseEnvFile_raws before, lines, lookup_rewrite settings]
  cases table.lookup key <;> rfl

end Raw

theorem secret_runes {secret : Text} (h : secretShape secret = true) :
    ∀ c ∈ secret, valueRune c = true := by
  intro c there
  simp only [secretShape, Bool.and_eq_true, decide_eq_true_eq] at h
  have hex := List.all_eq_true.mp h.2 c there
  have all : ∀ n : Fin 128, (IntegerRanges.isDigit (Char.ofNat n) ||
      ('a' ≤ Char.ofNat n && Char.ofNat n ≤ 'f')) = true → valueRune (Char.ofNat n) = true := by
    decide +kernel
  have small : c.toNat < 128 := by
    simp only [IntegerRanges.isDigit, Bool.or_eq_true, Bool.and_eq_true, decide_eq_true_eq] at hex
    rcases hex with ⟨-, below⟩ | ⟨-, below⟩
    · have bound : c.toNat ≤ '9'.toNat := below
      exact Nat.lt_of_le_of_lt bound (by decide)
    · have bound : c.toNat ≤ 'f'.toNat := below
      exact Nat.lt_of_le_of_lt bound (by decide)
  have here := all ⟨c.toNat, small⟩
  rw [Char.ofNat_toNat] at here
  exact here hex

theorem hash_runes {passwordHash : Text} (h : bcryptShape passwordHash = true) :
    ∀ c ∈ passwordHash, valueRune c = true := by
  have plain : ∀ c, hashRune c = true → valueRune c = true := by
    intro c rune
    simp only [hashRune, Bool.or_eq_true] at rune
    simp only [valueRune, Bool.or_eq_true]
    tauto
  have digits : ∀ c, IntegerRanges.isDigit c = true → valueRune c = true := by
    intro c digit
    have shape : secretShape (List.replicate 64 c) = true := by
      simp [secretShape, digit]
    exact secret_runes shape c (by simp)
  unfold bcryptShape at h
  split at h
  · rename_i version tens ones rest
    simp only [Bool.and_eq_true, Bool.or_eq_true, decide_eq_true_eq] at h
    obtain ⟨⟨⟨⟨version_, tens_⟩, ones_⟩, -⟩, runes⟩ := h
    intro c there
    simp only [List.mem_cons] at there
    rcases there with rfl | rfl | rfl | rfl | rfl | rfl | rfl | there
    · decide
    · decide
    · rcases version_ with (rfl | rfl) | rfl <;> decide
    · decide
    · exact digits _ tens_
    · exact digits _ ones_
    · decide
    · exact plain c (List.all_eq_true.mp runes c there)
  · cases h

theorem username_runes {username : Text} (h : usernameShape username = true) :
    ∀ c ∈ username, usernameRune c = true := by
  simp only [usernameShape, Bool.and_eq_true] at h
  exact List.all_eq_true.mp h.2

/-- The keys of the secrets, each with that of the file it may be in instead. -/
def secretKeys : List (String × String) :=
  [("SESSION_SECRET", "SESSION_SECRET_FILE"), ("APP_ENCRYPTION_KEY", "APP_ENCRYPTION_KEY_FILE")]

theorem secretKeys_ident {keys : String × String} (h : keys ∈ secretKeys) :
    Ident keys.1.toList := by
  have all : ∀ keys ∈ secretKeys, (keys.1.toList.head?.any identStart &&
      keys.1.toList.all identRune) = true := by
    decide +kernel
  exact ident_of_all (all keys h)

/-- The script knows what the file tells. -/
def Current [LcCtype] (file : Text) (vars : Variables) : Prop :=
  ∃ found, parseEnvFile file = .ok found ∧ found.values = vars.values ∧
    found.rawValues = vars.rawValues

section Current
variable [LcCtype] {file : Text} {vars vars' : Variables}

theorem Current.of_parse (h : parseEnvFile file = .ok vars) : Current file vars :=
    ⟨vars, h, rfl, rfl⟩

/-- After a write it knows the new file without reading it. -/
theorem Current.write (posix : Posix) (h : Current file vars) {key value : Text} (ident : Ident key)
    (runes : ∀ c ∈ value, valueRune c = true) :
    Current (writtenFile key value file) (EnvFile.writeEnvValue key value ⟨[], vars⟩).vars := by
  obtain ⟨found, parsed, values, raws⟩ := h
  have plain : Written value value := .plain runes
  have table := settings_single ident plain
  obtain ⟨after, accepted, changed, -⟩ := written_value posix parsed ident plain
  have bare : trimWhitespace value = value :=
    trimWhitespace_eq_self fun c there => solid_not_space (solid_of_rune (Or.inl (runes c there)))
  refine ⟨after, accepted, ?_, ?_⟩
  · rw [changed, values]
    simp [EnvFile.writeEnvValue, plain.decoded]
  · rw [writtenFile_eq posix ident] at accepted
    funext k
    rw [rewrite_raws table parsed accepted k, raws]
    by_cases own : k = key
    · subst own
      simp [EnvFile.writeEnvValue, bare]
    · have other : (k == key) = false := by simpa using own
      simp [EnvFile.writeEnvValue, List.lookup_cons, other, Function.update_of_ne own]

end Current

/-- What the script may put in the place of the file. -/
inductive Change [LcCtype] (file : Text) : Text → Prop
  | secret {vars : Variables} {keys : String × String} {secret : Text}
      (current : Current file vars) (there : keys ∈ secretKeys)
      (unset : given vars keys.1 = [] ∧ given vars keys.2 = [])
      (shape : secretShape secret = true) : Change file (writtenFile keys.1.toList secret file)
  | admin {username passwordHash : Text} (name : usernameShape username = true)
      (hash : bcryptShape passwordHash = true) : Change file (adminFile username passwordHash file)

/-- The keys the script writes. -/
def writtenKeys : List Text := adminKeys ++ secretKeys.map fun keys => keys.1.toList

theorem file_not_written {keys : String × String} (h : keys ∈ secretKeys) :
    keys.2.toList ∉ writtenKeys := by
  have all : ∀ keys ∈ secretKeys, keys.2.toList ∉ writtenKeys := by decide +kernel
  exact all keys h

theorem secret_not_admin {keys : String × String} (h : keys ∈ secretKeys) :
    keys.1.toList ∉ adminKeys := by
  have all : ∀ keys ∈ secretKeys, keys.1.toList ∉ adminKeys := by decide +kernel
  exact all keys h

theorem given_congr {vars vars' : Variables} {key : String}
    (same : vars'.values key.toList = vars.values key.toList) :
    given vars' key = given vars key := by
  simp [given, envValue, same]

/-- What has happened to a file and its variables: nothing to the lines and the values of
other keys, nothing to a secret that was there, and the account has been changed as a whole. -/
structure Preserved [LcCtype] (file : Text) (vars : Variables) (file' : Text) (vars' : Variables) :
    Prop where
  lines : Keeps writtenKeys file file'
  values : ∀ key ∉ writtenKeys, vars'.values key = vars.values key
  kept : ∀ keys ∈ secretKeys, given vars keys.1 ≠ [] ∨ given vars keys.2 ≠ [] →
    vars'.values keys.1.toList = vars.values keys.1.toList
  fresh : ∀ keys ∈ secretKeys, vars'.values keys.1.toList = vars.values keys.1.toList ∨
    ∃ secret, secretShape secret = true ∧ vars'.values keys.1.toList = some secret
  admin : (∀ key ∈ adminKeys, vars'.values key = vars.values key) ∨
    ∃ username passwordHash, usernameShape username = true ∧ bcryptShape passwordHash = true ∧
      ∀ key ∈ adminKeys, vars'.values key = (adminValues username passwordHash).lookup key

theorem keeps_wider [LcCtype] {keys keys' : List Text} {file file' : Text}
    (h : Keeps keys file file')
    (more : keys ⊆ keys') : Keeps keys' file file' := by
  have narrower : ∀ line, (unrelated keys' line && unrelated keys line) = unrelated keys' line := by
    intro line
    rw [Bool.and_eq_left_iff_imp]
    intro apart
    unfold unrelated at apart ⊢
    cases own : keyOf line with
    | none => rfl
    | some key =>
      rw [own] at apart
      have outside : key ∉ keys' := by simpa using apart
      have outside' : key ∉ keys := fun there => outside (more there)
      simpa using outside'
  have twice : ∀ lines : List Text, lines.filter (unrelated keys') =
      (lines.filter (unrelated keys)).filter (unrelated keys') := by
    intro lines
    rw [List.filter_filter]
    exact List.filter_congr fun line _ => (narrower line).symm
  rw [Keeps, twice (records file'), twice (records file), h]

section Preserved
variable [LcCtype] {file file' file'' : Text} {vars vars' vars'' : Variables}

theorem Preserved.refl (file : Text) (vars : Variables) : Preserved file vars file vars where
  lines := rfl
  values _ _ := rfl
  kept _ _ _ := rfl
  fresh _ _ := Or.inl rfl
  admin := Or.inl fun _ _ => rfl

theorem Preserved.trans (h : Preserved file vars file' vars')
    (h' : Preserved file' vars' file'' vars'') : Preserved file vars file'' vars'' where
  lines := h'.lines.trans h.lines
  values key outside := (h'.values key outside).trans (h.values key outside)
  kept keys there set_ := by
    have first := h.kept keys there set_
    have second : given vars' keys.1 ≠ [] ∨ given vars' keys.2 ≠ [] := by
      rwa [given_congr first, given_congr (h.values _ (file_not_written there))]
    exact (h'.kept keys there second).trans first
  fresh keys there := by
    rcases h'.fresh keys there with same | made
    · rw [same]
      exact h.fresh keys there
    · exact Or.inr made
  admin := by
    rcases h'.admin with same | made
    · rcases h.admin with same' | ⟨username, passwordHash, name, hash, values⟩
      · exact Or.inl fun key there => (same key there).trans (same' key there)
      · exact Or.inr ⟨username, passwordHash, name, hash,
          fun key there => (same key there).trans (values key there)⟩
    · exact Or.inr made

theorem secret_preserved (posix : Posix) {keys : String × String} {secret : Text}
    (accepted : parseEnvFile file = .ok vars) (there : keys ∈ secretKeys)
    (unset : given vars keys.1 = [] ∧ given vars keys.2 = []) (shape : secretShape secret = true) :
    ∃ vars', parseEnvFile (writtenFile keys.1.toList secret file) = .ok vars' ∧
      Preserved file vars (writtenFile keys.1.toList secret file) vars' := by
  obtain ⟨vars', parsed, values, lines⟩ :=
    written_value posix accepted (secretKeys_ident there) (.plain (secret_runes shape))
  have written : keys.1.toList ∈ writtenKeys :=
    List.mem_append_right _ (List.mem_map_of_mem (f := fun keys => keys.1.toList) there)
  have same : ∀ {key}, key ≠ keys.1.toList → vars'.values key = vars.values key := by
    intro key other
    rw [values, Function.update_of_ne other]
  refine ⟨vars', parsed, keeps_wider lines (by simpa using written), ?_, ?_, ?_, Or.inl ?_⟩
  · intro key outside
    apply same
    rintro rfl
    exact outside written
  · intro other there' set_
    apply same
    intro again
    have one : ∀ keys ∈ secretKeys, ∀ other ∈ secretKeys, other.1.toList = keys.1.toList →
        other = keys := by
      decide +kernel
    rw [one keys there other there' again] at set_
    tauto
  · intro other there'
    by_cases own : other.1.toList = keys.1.toList
    · refine Or.inr ⟨secret, shape, ?_⟩
      rw [own, values, Function.update_self]
    · exact Or.inl (same own)
  · intro key account
    apply same
    rintro rfl
    exact secret_not_admin there account

theorem admin_preserved (posix : Posix) {username passwordHash : Text}
    (accepted : parseEnvFile file = .ok vars)
    (name : usernameShape username = true) (hash : bcryptShape passwordHash = true) :
    ∃ vars', parseEnvFile (adminFile username passwordHash file) = .ok vars' ∧
      Preserved file vars (adminFile username passwordHash file) vars' := by
  obtain ⟨vars', parsed, values, lines⟩ :=
    written_admin posix accepted (username_runes name) (hash_runes hash)
  have same : ∀ {key}, key ∉ adminKeys → vars'.values key = vars.values key := by
    intro key outside
    have absent : (adminValues username passwordHash).lookup key = none := by
      rw [List.lookup_eq_none_iff]
      intro p there
      have own : p.1 ∈ adminKeys := List.mem_map_of_mem (f := Prod.fst) there
      have other : key ≠ p.1 := by
        rintro rfl
        exact outside own
      simpa using other
    rw [values, absent, Option.none_or]
  refine ⟨vars', parsed, keeps_wider lines (List.subset_append_left _ _), ?_, ?_, ?_, Or.inr ?_⟩
  · intro key outside
    exact same fun there => outside (List.mem_append_left _ there)
  · intro keys there _
    exact same (secret_not_admin there)
  · intro keys there
    exact Or.inl (same (secret_not_admin there))
  · refine ⟨username, passwordHash, name, hash, fun key there => ?_⟩
    have own : ((adminValues username passwordHash).lookup key).isSome = true := by
      rw [List.lookup_isSome_iff]
      obtain ⟨p, inside, rfl⟩ := List.mem_map.mp (show key ∈ (adminValues username
        passwordHash).map Prod.fst from there)
      exact ⟨p, inside, by simp⟩
    obtain ⟨value, found⟩ := Option.isSome_iff_exists.mp own
    rw [values, found, Option.some_or]

theorem Change.preserved (posix : Posix) (h : Change file file')
    (accepted : parseEnvFile file = .ok vars) :
    ∃ vars', parseEnvFile file' = .ok vars' ∧ Preserved file vars file' vars' := by
  cases h with
  | @secret known keys secret current there unset shape =>
    obtain ⟨found, parsed, values, -⟩ := current
    cases parsed.symm.trans accepted
    have same : ∀ key : String, given known key = given vars key :=
      fun key => given_congr (congrFun values.symm _)
    rw [same, same] at unset
    exact secret_preserved posix accepted there unset shape
  | admin name hash => exact admin_preserved posix accepted name hash

end Preserved

end EnvProgress
