import CertMate.AcmeEngine

/-!
# The language of domain names

`ValidateDomain` of `internal/certificate/validation.go` and `validateDomain` of
`internal/certificate/acmesh/engine.go` check a domain step by step, each in its own
order. Both accept the names of one grammar.
-/
namespace DomainNames
open CertificateModel DomainValidation

/-- Letters, digits and hyphens, at most 63 of them, without a hyphen at an end. -/
structure Label (label : List Char) : Prop where
  nonempty : label ≠ []
  short : label.length ≤ 63
  runes : ∀ c ∈ label, ('a' ≤ c ∧ c ≤ 'z') ∨ ('0' ≤ c ∧ c ≤ '9') ∨ c = '-'
  head : label.head? ≠ some '-'
  last : label.getLast? ≠ some '-'

/-- At least two labels with dots between them. -/
def Name (name : List Char) : Prop :=
  ∃ labels, 2 ≤ labels.length ∧ (∀ label ∈ labels, Label label) ∧ name = ['.'].intercalate labels

/-- A name, which may have an asterisk for a further label in front. -/
def Domain (d : String) : Prop :=
  d.utf8ByteSize ≤ 253 ∧ ∃ name, Name name ∧ (d.toList = name ∨ d.toList = '*' :: '.' :: name)

theorem labelRune_iff {c : Char} :
    labelRune c ↔ ('a' ≤ c ∧ c ≤ 'z') ∨ ('0' ≤ c ∧ c ≤ '9') ∨ c = '-' := by
  simp only [labelRune, Bool.or_eq_true, Bool.and_eq_true, decide_eq_true_eq, beq_iff_eq, or_assoc]

def domainRune (c : Char) : Bool := c == '.' || c == '*' || labelRune c

theorem domainRune_of_label {c : Char} (h : labelRune c) : domainRune c := by
  simp [domainRune, h]

theorem domainRune_small {c : Char} (h : domainRune c) : c.toNat < 128 := by
  have below : ∀ limit : Char, limit.toNat < 128 → c ≤ limit → c.toNat < 128 := by
    intro limit small le
    have le : c.toNat ≤ limit.toNat := UInt32.le_iff_toNat_le.mp le
    omega
  simp only [domainRune, Bool.or_eq_true, beq_iff_eq, labelRune_iff] at h
  rcases h with (rfl | rfl) | ⟨-, le⟩ | ⟨-, le⟩ | rfl
  · decide
  · decide
  · exact below _ (by decide) le
  · exact below _ (by decide) le
  · decide

theorem domainRune_ascii {c : Char} (h : domainRune c) :
    lowerRune c = c ∧ isSpace c = false ∧ c ≠ '\r' ∧ c ≠ '\n' ∧ c.utf8Size = 1 := by
  have all : ∀ n : Fin 128, domainRune (Char.ofNat n) →
      lowerRune (Char.ofNat n) = Char.ofNat n ∧ isSpace (Char.ofNat n) = false ∧
        Char.ofNat n ≠ '\r' ∧ Char.ofNat n ≠ '\n' ∧ (Char.ofNat n).utf8Size = 1 := by
    decide +kernel
  have here := all ⟨c.toNat, domainRune_small h⟩
  rw [Char.ofNat_toNat] at here
  exact here h

theorem byteSize_ascii {text : List Char} (ascii : ∀ c ∈ text, domainRune c) :
    (String.ofList text).utf8ByteSize = text.length := by
  induction text with
  | nil => rfl
  | cons c rest ih =>
    obtain ⟨first, later⟩ := List.forall_mem_cons.mp ascii
    obtain ⟨-, -, -, -, size⟩ := domainRune_ascii first
    rw [String.ofList_cons, String.utf8ByteSize_append, String.utf8ByteSize_singleton, size,
      ih later, List.length_cons]
    omega

theorem toLower_ascii {d : String} (ascii : ∀ c ∈ d.toList, domainRune c) : toLower d = d := by
  have same : d.toList.map lowerRune = d.toList := by
    rw [List.map_congr_left fun c there => (domainRune_ascii (ascii c there)).1, List.map_id']
  rw [toLower, same, String.ofList_toList]

theorem trimSpace_ascii {d : String} (ascii : ∀ c ∈ d.toList, domainRune c) : trimSpace d = d := by
  have blank : ∀ text : List Char, (∀ c ∈ text, domainRune c) → text.dropWhile isSpace = text := by
    intro text ascii
    cases text with
    | nil => rfl
    | cons c rest =>
      have first := (domainRune_ascii (ascii c List.mem_cons_self)).2.1
      rw [List.dropWhile_cons, if_neg (by simp [first])]
  rw [trimSpace, blank _ ascii, blank, List.reverse_reverse, String.ofList_toList]
  intro c there
  exact ascii c (List.mem_reverse.mp there)

section Names
variable {name label : List Char} {labels : List (List Char)}

theorem Label.domainRune (valid : Label label) : ∀ c ∈ label, domainRune c :=
  fun c there => domainRune_of_label (labelRune_iff.mpr (valid.runes c there))

theorem Label.no_dot (valid : Label label) : '.' ∉ label := by
  intro there
  have rune := labelRune_iff.mpr (valid.runes '.' there)
  exact absurd rune (by decide)

/-- The labels of a name are the parts between its dots. -/
theorem splitOn_labels (valid : ∀ label ∈ labels, Label label) (some_ : 2 ≤ labels.length) :
    (['.'].intercalate labels).splitOn '.' = labels := by
  apply List.splitOn_intercalate '.'
  · exact fun label there => (valid label there).no_dot
  · rintro rfl
    rw [List.length_nil] at some_
    omega

theorem name_iff :
    Name name ↔ 2 ≤ (name.splitOn '.').length ∧ ∀ label ∈ name.splitOn '.', Label label := by
  constructor
  · rintro ⟨labels, some_, valid, rfl⟩
    rw [splitOn_labels valid some_]
    exact ⟨some_, valid⟩
  · rintro ⟨some_, valid⟩
    exact ⟨name.splitOn '.', some_, valid, (List.intercalate_splitOn '.').symm⟩

theorem mem_intercalate {c separator : Char} (h : c ∈ [separator].intercalate labels) :
    c = separator ∨ ∃ label ∈ labels, c ∈ label := by
  induction labels with
  | nil => cases h
  | cons label rest ih =>
    cases rest with
    | nil =>
      rw [List.intercalate_singleton] at h
      exact Or.inr ⟨label, List.mem_cons_self, h⟩
    | cons next others =>
      rw [List.intercalate_cons_cons, List.append_assoc] at h
      rcases List.mem_append.mp h with here | h
      · exact Or.inr ⟨label, List.mem_cons_self, here⟩
      · rcases List.mem_append.mp h with between | later
        · exact Or.inl (List.mem_singleton.mp between)
        · rcases ih later with same | ⟨part, there, mem⟩
          · exact Or.inl same
          · exact Or.inr ⟨part, List.mem_cons_of_mem _ there, mem⟩

theorem intercalate_ne_nil {separator : Char} (nonempty : label ≠ []) :
    [separator].intercalate (label :: labels) ≠ [] := by
  cases labels with
  | nil => rwa [List.intercalate_singleton]
  | cons next others =>
    rw [List.intercalate_cons_cons, List.append_assoc]
    exact List.append_ne_nil_of_left_ne_nil nonempty _

theorem no_dot_last (valid : ∀ label ∈ labels, Label label) :
    (['.'].intercalate labels).getLast? ≠ some '.' := by
  induction labels with
  | nil => simp
  | cons label rest ih =>
    obtain ⟨first, later⟩ := List.forall_mem_cons.mp valid
    cases rest with
    | nil =>
      rw [List.intercalate_singleton]
      intro dot
      exact first.no_dot (List.mem_of_getLast? dot)
    | cons next others =>
      have some_ := (later next List.mem_cons_self).nonempty
      rw [List.intercalate_cons_cons,
        List.getLast?_append_of_ne_nil _ (intercalate_ne_nil some_)]
      exact ih later

theorem Name.runes (h : Name name) : ∀ c ∈ name, c = '.' ∨ labelRune c := by
  obtain ⟨labels, -, valid, rfl⟩ := h
  intro c there
  rcases mem_intercalate there with dot | ⟨label, mem, inside⟩
  · exact Or.inl dot
  · exact Or.inr (labelRune_iff.mpr ((valid label mem).runes c inside))

theorem Name.no_asterisk (h : Name name) : '*' ∉ name := by
  intro there
  rcases h.runes '*' there with dot | rune
  · cases dot
  · exact absurd rune (by decide)

theorem Name.dot (h : Name name) : '.' ∈ name := by
  obtain ⟨labels, some_, -, rfl⟩ := h
  match labels, some_ with
  | first :: second :: rest, _ =>
    rw [List.intercalate_cons_cons, List.append_assoc]
    exact List.mem_append_right _ List.mem_cons_self

theorem Name.no_trailing_dot (h : Name name) : name.getLast? ≠ some '.' := by
  obtain ⟨labels, -, valid, rfl⟩ := h
  exact no_dot_last valid

theorem isWildcard_iff {d : String} : isWildcard d ↔ ∃ base, d.toList = '*' :: '.' :: base := by
  rw [isWildcard, List.isPrefixOf_iff_prefix]
  constructor
  · rintro ⟨base, whole⟩
    exact ⟨base, whole.symm⟩
  · rintro ⟨base, whole⟩
    exact ⟨base, whole.symm⟩

/-- A domain is a name when the wildcard prefix is gone. -/
theorem domain_iff {d : String} :
    Domain d ↔ d.utf8ByteSize ≤ 253 ∧ Name (trimWildcard d).toList := by
  apply and_congr_right'
  by_cases wild : isWildcard d
  · obtain ⟨rest, whole⟩ := isWildcard_iff.mp wild
    rw [trimWildcard, if_pos wild, String.toList_ofList, whole]
    constructor
    · rintro ⟨name, valid, same | same⟩
      · rw [← same] at valid
        exact absurd List.mem_cons_self valid.no_asterisk
      · cases same
        exact valid
    · intro valid
      exact ⟨rest, valid, Or.inr rfl⟩
  · rw [trimWildcard, if_neg wild]
    constructor
    · rintro ⟨name, valid, same | same⟩
      · rwa [same]
      · exact absurd (isWildcard_iff.mpr ⟨name, same⟩) wild
    · intro valid
      exact ⟨d.toList, valid, Or.inl rfl⟩

theorem Domain.runes {d : String} (h : Domain d) : ∀ c ∈ d.toList, domainRune c := by
  obtain ⟨-, name, valid, same⟩ := h
  have plain : ∀ c ∈ name, domainRune c := by
    intro c there
    rcases valid.runes c there with rfl | rune
    · decide
    · exact domainRune_of_label rune
  rcases same with same | same
  · rwa [same]
  · rw [same, List.forall_mem_cons, List.forall_mem_cons]
    exact ⟨by decide, by decide, plain⟩

theorem Domain.no_trailing_dot {d : String} (h : Domain d) : d.toList.getLast? ≠ some '.' := by
  obtain ⟨-, name, valid, same⟩ := h
  rcases same with same | same
  · rw [same]
    exact valid.no_trailing_dot
  · have some_ : name ≠ [] := List.ne_nil_of_mem valid.dot
    have whole : d.toList = ['*', '.'] ++ name := same
    rw [whole, List.getLast?_append_of_ne_nil _ some_]
    exact valid.no_trailing_dot

theorem Domain.nonempty {d : String} (h : Domain d) : d ≠ "" := by
  rintro rfl
  obtain ⟨-, name, valid, same | same⟩ := h
  · rw [← same] at valid
    cases valid.dot
  · cases same

end Names

/-- What both loops check of a label. -/
theorem label_iff {label : List Char} :
    Label label ↔ ¬ (label.length = 0 ∨ 63 < (String.ofList label).utf8ByteSize ∨
      label.head? = some '-' ∨ label.getLast? = some '-') ∧ label.all labelRune := by
  constructor
  · intro valid
    rw [byteSize_ascii valid.domainRune]
    constructor
    · rintro (empty | long | head | last)
      · exact valid.nonempty (List.length_eq_zero_iff.mp empty)
      · have short := valid.short
        omega
      · exact valid.head head
      · exact valid.last last
    · exact List.all_eq_true.mpr fun c there => labelRune_iff.mpr (valid.runes c there)
  · rintro ⟨shape, all⟩
    have runes := List.all_eq_true.mp all
    rw [byteSize_ascii fun c there => domainRune_of_label (runes c there)] at shape
    constructor
    · rintro rfl
      exact shape (Or.inl rfl)
    · by_contra long
      exact shape (Or.inr (Or.inl (by omega)))
    · exact fun c there => labelRune_iff.mp (runes c there)
    · exact fun head => shape (Or.inr (Or.inr (Or.inl head)))
    · exact fun last => shape (Or.inr (Or.inr (Or.inr last)))

theorem validateLabel_iff {label : List Char} : validateLabel label = .ok () ↔ Label label := by
  rw [label_iff, validateLabel]
  split
  · rename_i shape
    exact iff_of_false (fun h => nomatch h) fun h => h.1 shape
  · rename_i shape
    split
    · rename_i runes
      exact iff_of_true rfl ⟨shape, runes⟩
    · rename_i runes
      exact iff_of_false (fun h => nomatch h) fun h => runes h.2

theorem validateLabels_iff {labels : List (List Char)} :
    validateLabels labels = .ok () ↔ ∀ label ∈ labels, Label label := by
  induction labels with
  | nil => simp [validateLabels]
  | cons label rest ih =>
    rw [List.forall_mem_cons, ← validateLabel_iff, ← ih, validateLabels]
    cases validateLabel label with
    | error err => simp
    | ok => simp

theorem validateName_iff {name : String} : validateName name = .ok () ↔ Name name.toList := by
  rw [validateName]
  split
  · rename_i asterisk
    apply iff_of_false (fun h => nomatch h)
    intro valid
    exact valid.no_asterisk (List.contains_iff_mem.mp asterisk)
  · split
    · rename_i few
      apply iff_of_false (fun h => nomatch h)
      intro valid
      have some_ := (name_iff.mp valid).1
      omega
    · rename_i some_
      rw [validateLabels_iff, name_iff]
      constructor
      · exact fun valid => ⟨by omega, valid⟩
      · exact fun valid => valid.2

theorem validateDomain_iff {d : String} {allowWildcard : Bool} :
    validateDomain d allowWildcard = .ok () ↔ Domain d ∧ (isWildcard d → allowWildcard) := by
  constructor
  · intro h
    unfold validateDomain at h
    split at h
    · cases h
    · rename_i size
      have fits : d.utf8ByteSize ≤ 253 := by
        by_contra long
        exact size (Or.inr (by omega))
      split at h
      · cases h
      · split at h
        · split at h
          · cases h
          · rename_i allowed
            split at h
            · cases h
            · have valid := domain_iff.mpr ⟨fits, validateName_iff.mp h⟩
              exact ⟨valid, fun _ => by simpa using allowed⟩
        · rename_i plain
          have valid : Name (trimWildcard d).toList := by
            rw [trimWildcard, if_neg plain]
            exact validateName_iff.mp h
          exact ⟨domain_iff.mpr ⟨fits, valid⟩, fun wild => absurd wild plain⟩
  · rintro ⟨valid, allowed⟩
    obtain ⟨fits, named⟩ := domain_iff.mp valid
    unfold validateDomain
    rw [if_neg, if_neg]
    · split
      · rename_i wild
        rw [if_neg (by simp [allowed wild]), if_neg]
        · exact validateName_iff.mpr named
        · have dots := List.count_pos_iff.mpr named.dot
          omega
      · rename_i plain
        rw [trimWildcard, if_neg plain] at named
        exact validateName_iff.mpr named
    · rintro (upper | spaced | dot)
      · exact upper (toLower_ascii valid.runes).symm
      · exact spaced (trimSpace_ascii valid.runes)
      · exact valid.no_trailing_dot dot
    · rintro (empty | long)
      · exact valid.nonempty empty
      · omega

theorem engine_validateLabel_iff {label : List Char} :
    AcmeEngine.validateLabel label = .ok () ↔ Label label := by
  rw [label_iff, AcmeEngine.validateLabel]
  split
  · rename_i shape
    exact iff_of_false (fun h => nomatch h) fun h => h.1 shape
  · rename_i shape
    split
    · rename_i runes
      exact iff_of_true rfl ⟨shape, runes⟩
    · rename_i runes
      exact iff_of_false (fun h => nomatch h) fun h => runes h.2

theorem engine_validateLabels_iff {labels : List (List Char)} :
    AcmeEngine.validateLabels labels = .ok () ↔ ∀ label ∈ labels, Label label := by
  induction labels with
  | nil => simp [AcmeEngine.validateLabels]
  | cons label rest ih =>
    rw [List.forall_mem_cons, ← engine_validateLabel_iff, ← ih, AcmeEngine.validateLabels]
    cases AcmeEngine.validateLabel label with
    | error err => simp
    | ok => simp

theorem engine_validateDomain_iff {d : String} :
    AcmeEngine.validateDomain d = .ok () ↔ Domain d := by
  constructor
  · intro h
    unfold AcmeEngine.validateDomain at h
    split at h
    · cases h
    · rename_i shape
      dsimp only at h
      split at h
      · cases h
      · split at h
        · cases h
        · rename_i some_
          apply domain_iff.mpr
          constructor
          · by_contra long
            exact shape (Or.inr (Or.inl (by omega)))
          · exact name_iff.mpr ⟨by omega, engine_validateLabels_iff.mp h⟩
  · intro valid
    obtain ⟨fits, named⟩ := domain_iff.mp valid
    obtain ⟨some_, labels⟩ := name_iff.mp named
    unfold AcmeEngine.validateDomain
    rw [if_neg]
    · dsimp only
      rw [if_neg named.no_asterisk, if_neg (by omega)]
      exact engine_validateLabels_iff.mpr labels
    · rintro (empty | long | cr | lf | upper)
      · exact valid.nonempty empty
      · omega
      · exact (domainRune_ascii (valid.runes _ cr)).2.2.1 rfl
      · exact (domainRune_ascii (valid.runes _ lf)).2.2.2.1 rfl
      · exact upper (toLower_ascii valid.runes).symm

/-- Both validators accept the same names, and without wildcards those without the
prefix. -/
theorem validators_agree (d : String) :
    (validateDomain d true = .ok () ↔ AcmeEngine.validateDomain d = .ok ()) ∧
      (AcmeEngine.validateDomain d = .ok () ↔ Domain d) ∧
      (validateDomain d false = .ok () ↔ Domain d ∧ ¬ ['*', '.'] <+: d.toList) := by
  refine ⟨?_, engine_validateDomain_iff, ?_⟩
  · rw [validateDomain_iff, engine_validateDomain_iff]
    exact and_iff_left fun _ => rfl
  · rw [validateDomain_iff]
    apply and_congr_right'
    rw [isWildcard, List.isPrefixOf_iff_prefix]
    exact ⟨fun never wild => absurd (never wild) (by decide), fun never wild => absurd wild never⟩

end DomainNames
