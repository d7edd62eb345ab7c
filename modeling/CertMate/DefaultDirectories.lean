import CertMate.CertificateService
import CertMate.DomainNames

/-!
# The directory of a request that names none

`SafeDirectoryFromDomain` of `internal/certificate/validation.go` strips, replaces,
trims and cuts. What it makes of a valid domain passes `ValidateSafeDirectory` of
`internal/certificate/files/publisher.go`.
-/
namespace DefaultDirectories
open CertificateModel DomainValidation CertificateService DomainNames

def isHyphen (c : Char) : Bool := c == '-'

/-- A dot becomes a hyphen. -/
def dashed (name : List Char) : List Char := name.map fun c => if c = '.' then '-' else c

/-- A letter or a digit, then letters, digits and hyphens. -/
structure Directory (text : List Char) : Prop where
  head : ∃ first rest, text = first :: rest ∧ directoryRune first = true
  runes : ∀ c ∈ text, directoryRune c = true ∨ c = '-'

theorem directoryRune_of_label {c : Char} (rune : labelRune c = true) (other : c ≠ '-') :
    directoryRune c = true := by
  rcases labelRune_iff.mp rune with letter | digit | hyphen
  · simp [directoryRune, letter]
  · simp [directoryRune, digit]
  · exact absurd hyphen other

theorem hyphen_not_directoryRune : directoryRune '-' = false := by decide

section Text
variable {text name label : List Char}

theorem Directory.part {part : List Char} (valid : Directory text) (front : part <+: text)
    (some_ : part ≠ []) : Directory part := by
  obtain ⟨first, rest, rfl, rune⟩ := valid.head
  constructor
  · cases part with
    | nil => exact absurd rfl some_
    | cons c others =>
      obtain ⟨rfl, -⟩ := List.cons_prefix_cons.mp front
      exact ⟨c, others, rfl, rune⟩
  · exact fun c there => valid.runes c (front.subset there)

/-- Trimming on the right leaves the first character where it is. -/
theorem Directory.trimRight (valid : Directory text) : Directory (text.rdropWhile isHyphen) := by
  apply valid.part (List.rdropWhile_prefix isHyphen text)
  obtain ⟨first, rest, rfl, rune⟩ := valid.head
  intro empty
  have hyphen := List.rdropWhile_eq_nil_iff.mp empty first List.mem_cons_self
  rw [isHyphen, beq_iff_eq] at hyphen
  rw [hyphen, hyphen_not_directoryRune] at rune
  cases rune

theorem Directory.trimLeft (valid : Directory text) : text.dropWhile isHyphen = text := by
  obtain ⟨first, rest, rfl, rune⟩ := valid.head
  rw [List.dropWhile_cons, if_neg]
  intro hyphen
  rw [isHyphen, beq_iff_eq] at hyphen
  rw [hyphen, hyphen_not_directoryRune] at rune
  cases rune

theorem Directory.cut (valid : Directory text) {limit : Nat} (room : 0 < limit) :
    Directory (text.take limit) := by
  apply valid.part (List.take_prefix limit text)
  obtain ⟨first, rest, rfl, -⟩ := valid.head
  cases limit with
  | zero => omega
  | succ limit => exact List.cons_ne_nil _ _

theorem Directory.safe (valid : Directory text) (short : text.length ≤ 63) :
    safeDirectory (String.ofList text) = true := by
  obtain ⟨first, rest, rfl, rune⟩ := valid.head
  have runes : ∀ c ∈ rest, directoryRune c = true ∨ c = '-' :=
    fun c there => valid.runes c (List.mem_cons_of_mem _ there)
  have room : rest.length ≤ 62 := by
    rw [List.length_cons] at short
    omega
  simp only [safeDirectory, String.toList_ofList, rune, room, decide_true, Bool.true_and,
    List.all_eq_true, Bool.or_eq_true, beq_iff_eq]
  exact runes

/-- None of its characters separates the parts of a path or stands for one. -/
theorem Directory.below (valid : Directory text) : ∀ c ∈ text, c ≠ '/' ∧ c ≠ '\\' ∧ c ≠ '.' := by
  intro c there
  have rune := valid.runes c there
  constructor
  · rintro rfl
    exact absurd rune (by decide)
  · constructor
    · rintro rfl
      exact absurd rune (by decide)
    · rintro rfl
      exact absurd rune (by decide)

/-- The first label of a name begins with a letter or a digit. -/
theorem Label.first (valid : Label label) :
    ∃ first rest, label = first :: rest ∧ directoryRune first = true := by
  cases label with
  | nil => exact absurd rfl valid.nonempty
  | cons first rest =>
    have rune := labelRune_iff.mpr (valid.runes first List.mem_cons_self)
    refine ⟨first, rest, rfl, directoryRune_of_label rune ?_⟩
    rintro rfl
    exact valid.head rfl

theorem Name.first (valid : Name name) :
    ∃ first rest, name = first :: rest ∧ directoryRune first = true := by
  obtain ⟨labels, some_, each, rfl⟩ := valid
  match labels, some_ with
  | label :: next :: others, _ =>
    obtain ⟨first, rest, rfl, rune⟩ := Label.first (each label List.mem_cons_self)
    rw [List.intercalate_cons_cons]
    exact ⟨first, _, rfl, rune⟩

theorem dashed_directory (valid : Name name) : Directory (dashed name) := by
  constructor
  · obtain ⟨first, rest, rfl, rune⟩ := Name.first valid
    have plain : first ≠ '.' := by
      rintro rfl
      exact absurd rune (by decide)
    refine ⟨first, dashed rest, ?_, rune⟩
    rw [dashed, List.map_cons, if_neg plain]
    rfl
  · intro c there
    obtain ⟨rune, mem, rfl⟩ := List.mem_map.mp there
    split
    · exact Or.inr rfl
    · rename_i plain
      by_cases hyphen : rune = '-'
      · exact Or.inr hyphen
      · exact Or.inl (directoryRune_of_label ((valid.runes rune mem).resolve_left plain) hyphen)

end Text

/-- What is left of a valid domain. -/
theorem safeDirectoryFromDomain_eq {d : String} (valid : Domain d) :
    safeDirectoryFromDomain d =
      let value := (dashed (trimWildcard d).toList).rdropWhile isHyphen
      if 63 < value.length then String.ofList ((value.take 63).rdropWhile isHyphen)
      else String.ofList value := by
  have left := (dashed_directory (domain_iff.mp valid).2).trimLeft
  rw [safeDirectoryFromDomain, toLower_ascii valid.runes]
  change (let value := ((dashed (trimWildcard d).toList).dropWhile isHyphen).rdropWhile isHyphen
    if 63 < value.length then String.ofList ((value.take 63).rdropWhile isHyphen)
    else String.ofList value) = _
  rw [left]

theorem safeDirectoryFromDomain_directory {d : String} (valid : Domain d) :
    Directory (safeDirectoryFromDomain d).toList ∧
      (safeDirectoryFromDomain d).toList.length ≤ 63 := by
  have trimmed := (dashed_directory (domain_iff.mp valid).2).trimRight
  rw [safeDirectoryFromDomain_eq valid]
  dsimp only
  split
  · rw [String.toList_ofList]
    refine ⟨(trimmed.cut (by omega)).trimRight, ?_⟩
    have cut := (List.rdropWhile_prefix isHyphen
      (((dashed (trimWildcard d).toList).rdropWhile isHyphen).take 63)).length_le
    rw [List.length_take] at cut
    omega
  · rename_i short
    rw [String.toList_ofList]
    exact ⟨trimmed, by omega⟩

theorem safeDirectoryFromDomain_safe {d : String} (valid : Domain d) :
    safeDirectory (safeDirectoryFromDomain d) = true := by
  obtain ⟨directory, short⟩ := safeDirectoryFromDomain_directory valid
  have safe := directory.safe short
  rwa [String.ofList_toList] at safe

-- A goal about a program is otherwise reduced as far as the texts in it go.
attribute [local irreducible] trimSpace normalizeDomains

/-- The directory of a valid domain is a name below the root, and a request for that
domain that names no directory passes with it as soon as its other fields pass. -/
theorem default_directory {d : String} (valid : validateDomain d true = .ok ()) :
    safeDirectoryFromDomain d ≠ "" ∧
      validateSafeDirectory (safeDirectoryFromDomain d) = .ok () ∧
      (∀ c ∈ (safeDirectoryFromDomain d).toList, c ≠ '/' ∧ c ≠ '\\' ∧ c ≠ '.') ∧
      ∀ (name primaryDomain : String) (sans domains : List String)
        (allowed : String → List String → Except Error Unit),
        validName (trimSpace name) = true →
        normalizeDomains primaryDomain sans = .ok (d, domains) → allowed d domains = .ok () →
        normalizeRequest name primaryDomain sans "" allowed =
          .ok (trimSpace name, d, domains, safeDirectoryFromDomain d) := by
  have domain := (validateDomain_iff.mp valid).1
  obtain ⟨directory, -⟩ := safeDirectoryFromDomain_directory domain
  have safe : validateSafeDirectory (safeDirectoryFromDomain d) = .ok () := by
    rw [validateSafeDirectory, if_pos (safeDirectoryFromDomain_safe domain)]
  refine ⟨?_, safe, ?_, ?_⟩
  · intro empty
    obtain ⟨first, rest, whole, -⟩ := directory.head
    rw [empty] at whole
    cases whole
  · exact fun c there => directory.below c there
  · intro name primaryDomain sans domains allowed named normal passed
    simp only [normalizeRequest, named, normal, passed, safe, if_true, Bool.not_true,
      Bool.false_eq_true, if_false]

theorem default_directory_wildcard :
    validateSafeDirectory (safeDirectoryFromDomain "*.mail.example.com") = .ok () :=
  (default_directory (d := "*.mail.example.com") (by decide +kernel)).2.1

end DefaultDirectories
