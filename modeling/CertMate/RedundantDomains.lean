import CertMate.NormalizedDomains

/-!
# Domains that a wildcard covers

`ValidateACMEDomains` of `internal/certificate/validation.go` refuses a list in which a
wildcard covers another domain, and `findRedundantACMEDomain` of `web/src/validation.ts`
looks for such a pair in the form. The two go through the domains in different orders.
-/
namespace RedundantDomains
open CertificateModel DomainValidation DomainNames NormalizedDomains

/-- The domain has one label more than the base of the wildcard. -/
def Covers (wildcard domain : String) : Prop :=
  ∃ label base, wildcard.toList = '*' :: '.' :: base ∧ domain.toList = label ++ '.' :: base ∧
    label ≠ [] ∧ '.' ∉ label

/-- Some wildcard of the list covers a domain of it that is none itself. -/
def Redundant (domains : List String) : Prop :=
  ∃ domain ∈ domains, ∃ wildcard ∈ domains, ¬ isWildcard domain ∧ Covers wildcard domain

theorem Covers.isWildcard {wildcard domain : String} (h : Covers wildcard domain) :
    isWildcard wildcard := by
  obtain ⟨_, base, whole, -⟩ := h
  exact isWildcard_iff.mpr ⟨base, whole⟩

/-- What a text has before a suffix of it is its label. -/
theorem label_of_suffix (base domain : List Char) :
    ((if ('.' :: base).isSuffixOf domain then
        let leftmostLabel := domain.take (domain.length - ('.' :: base).length)
        !leftmostLabel.isEmpty && !leftmostLabel.contains '.'
      else false) = true) ↔
      ∃ label, domain = label ++ '.' :: base ∧ label ≠ [] ∧ '.' ∉ label := by
  constructor
  · intro h
    split at h
    · rename_i ends
      obtain ⟨label, rfl⟩ := List.isSuffixOf_iff_suffix.mp ends
      rw [List.length_append, Nat.add_sub_cancel, List.take_left] at h
      simp only [Bool.and_eq_true, Bool.not_eq_true', List.isEmpty_eq_false_iff,
        List.contains_eq_mem, decide_eq_false_iff_not] at h
      exact ⟨label, rfl, h.1, h.2⟩
    · cases h
  · rintro ⟨label, rfl, some_, single⟩
    rw [if_pos (List.isSuffixOf_iff_suffix.mpr (List.suffix_append label _)), List.length_append,
      Nat.add_sub_cancel, List.take_left]
    simp [some_, single]

theorem wildcardCoversDomain_iff {wildcard domain : String} (wild : isWildcard wildcard) :
    wildcardCoversDomain wildcard domain ↔ Covers wildcard domain := by
  obtain ⟨base, whole⟩ := isWildcard_iff.mp wild
  have trimmed : (trimWildcard wildcard).toList = base := by
    rw [trimWildcard, if_pos wild, String.toList_ofList, whole]
    rfl
  rw [wildcardCoversDomain, trimmed]
  refine (label_of_suffix base domain.toList).trans ?_
  constructor
  · rintro ⟨label, parts⟩
    exact ⟨label, base, whole, parts⟩
  · rintro ⟨label, base', whole', parts⟩
    rw [whole] at whole'
    cases whole'
    exact ⟨label, parts⟩

/-- The first of a sorted list to pass a test is the least of those that pass it. -/
theorem least_of_find? {α : Type} [LinearOrder α] {values : List α} {test : α → Bool} {a : α}
    (sorted : values.SortedLE) (found : values.find? test = some a) :
    test a ∧ a ∈ values ∧ ∀ b ∈ values, test b → a ≤ b := by
  obtain ⟨passes, before, after, rfl, fail⟩ := List.find?_eq_some_iff_append.mp found
  refine ⟨passes, List.mem_append_right _ List.mem_cons_self, fun b there also => ?_⟩
  rcases List.mem_append.mp there with early | late
  · have fails := fail b early
    rw [also] at fails
    cases fails
  · rcases List.mem_cons.mp late with rfl | late
    · exact le_refl b
    · have tail := (List.pairwise_append.mp sorted.pairwise).2.1
      exact (List.pairwise_cons.mp tail).1 b late

section Search
variable {wildcards domains : List String}

theorem findRedundant_none : findRedundant wildcards domains = none ↔
    ∀ domain ∈ domains, ¬ isWildcard domain →
      ∀ wildcard ∈ wildcards, ¬ wildcardCoversDomain wildcard domain := by
  induction domains with
  | nil => exact iff_of_true rfl fun _ there => nomatch there
  | cons domain rest ih =>
    rw [List.forall_mem_cons, ← ih, findRedundant]
    by_cases wild : isWildcard domain
    · rw [if_pos wild]
      exact ⟨fun h => ⟨fun plain => absurd wild plain, h⟩, fun h => h.2⟩
    · rw [if_neg wild]
      split
      · rename_i wildcard found
        apply iff_of_false (fun h => nomatch h)
        intro h
        obtain ⟨covers, -⟩ := List.find?_eq_some_iff_append.mp found
        exact h.1 wild wildcard (List.mem_of_find?_eq_some found) covers
      · rename_i missed
        exact ⟨fun h => ⟨fun _ => List.find?_eq_none.mp missed, h⟩, fun h => h.2⟩

theorem findRedundant_some {domain wildcard : String}
    (h : findRedundant wildcards domains = some (domain, wildcard)) :
    ∃ before after, domains = before ++ domain :: after ∧ ¬ isWildcard domain ∧
      (∀ earlier ∈ before, ¬ isWildcard earlier →
        ∀ wildcard ∈ wildcards, ¬ wildcardCoversDomain wildcard earlier) ∧
      wildcards.find? (fun wildcard => wildcardCoversDomain wildcard domain) = some wildcard := by
  induction domains with
  | nil => cases h
  | cons first rest ih =>
    rw [findRedundant] at h
    have later : (¬ isWildcard first → ∀ wildcard ∈ wildcards,
        ¬ wildcardCoversDomain wildcard first) → findRedundant wildcards rest = some (domain, wildcard) →
        ∃ before after, first :: rest = before ++ domain :: after ∧ ¬ isWildcard domain ∧
          (∀ earlier ∈ before, ¬ isWildcard earlier →
            ∀ wildcard ∈ wildcards, ¬ wildcardCoversDomain wildcard earlier) ∧
          wildcards.find? (fun wildcard => wildcardCoversDomain wildcard domain) =
            some wildcard := by
      intro passed h
      obtain ⟨before, after, rfl, plain, early, found⟩ := ih h
      exact ⟨first :: before, after, rfl, plain, List.forall_mem_cons.mpr ⟨passed, early⟩, found⟩
    split at h
    · rename_i wild
      exact later (fun plain => absurd wild plain) h
    · rename_i plain
      split at h
      · rename_i found
        cases h
        exact ⟨[], rest, rfl, plain, (fun _ there => nomatch there), found⟩
      · rename_i missed
        exact later (fun _ => List.find?_eq_none.mp missed) h

end Search

theorem mem_wildcards {domains : List String} {wildcard : String} :
    wildcard ∈ sortStrings (domains.filter isWildcard) ↔ wildcard ∈ domains ∧ isWildcard wildcard := by
  rw [sortStrings, List.mem_insertionSort, List.mem_filter]

theorem not_covered {domains : List String} {domain : String} :
    (∀ wildcard ∈ sortStrings (domains.filter isWildcard),
        ¬ wildcardCoversDomain wildcard domain) ↔
      ∀ wildcard ∈ domains, ¬ Covers wildcard domain := by
  constructor
  · intro h wildcard there covers
    have wild := covers.isWildcard
    exact h wildcard (mem_wildcards.mpr ⟨there, wild⟩) ((wildcardCoversDomain_iff wild).mpr covers)
  · intro h wildcard there covers
    obtain ⟨mem, wild⟩ := mem_wildcards.mp there
    exact h wildcard mem ((wildcardCoversDomain_iff wild).mp covers)

theorem findRedundant_none_iff {domains searched : List String} :
    findRedundant (sortStrings (domains.filter isWildcard)) searched = none ↔
      ¬ ∃ domain ∈ searched, ∃ wildcard ∈ domains, ¬ isWildcard domain ∧ Covers wildcard domain := by
  rw [findRedundant_none]
  constructor
  · rintro free ⟨domain, there, wildcard, mem, plain, covers⟩
    exact not_covered.mp (free domain there plain) wildcard mem covers
  · intro free domain there plain
    apply not_covered.mpr
    intro wildcard mem covers
    exact free ⟨domain, there, wildcard, mem, plain, covers⟩

theorem validateACMEDomains_ok_iff (primary : String) (domains : List String) :
    validateACMEDomains primary domains = .ok () ↔ ¬ Redundant domains := by
  rw [Redundant, ← findRedundant_none_iff, validateACMEDomains]
  split
  · rename_i found
    rw [found]
    exact iff_of_false (fun h => nomatch h) fun h => nomatch h
  · rename_i missed
    exact iff_of_true rfl missed

/-- A list is refused when a wildcard of it covers a domain of it. The error names the
first such domain and the least wildcard that covers it. -/
theorem validateACMEDomains_exact (primary : String) (domains : List String) :
    (validateACMEDomains primary domains = .ok () ↔
        ¬ ∃ domain ∈ domains, ∃ wildcard ∈ domains,
          ¬ isWildcard domain ∧ Covers wildcard domain) ∧
      (∀ err, validateACMEDomains primary domains = .error err →
        ∃ before domain after wildcard, domains = before ++ domain :: after ∧
          ¬ isWildcard domain ∧
          (∀ earlier ∈ before, ¬ isWildcard earlier → ∀ w ∈ domains, ¬ Covers w earlier) ∧
          wildcard ∈ domains ∧ Covers wildcard domain ∧
          (∀ w ∈ domains, Covers w domain → wildcard ≤ w) ∧
          err = .redundantDomain domain wildcard (domain = primary)) ∧
      (∀ domains', (∀ d, d ∈ domains ↔ d ∈ domains') →
        (validateACMEDomains primary domains = .ok () ↔
          validateACMEDomains primary domains' = .ok ())) := by
  refine ⟨validateACMEDomains_ok_iff primary domains, ?_, ?_⟩
  · intro err h
    unfold validateACMEDomains at h
    split at h
    · rename_i domain wildcard found
      cases h
      obtain ⟨before, after, parts, plain, early, search⟩ := findRedundant_some found
      obtain ⟨covers, mem, least⟩ := least_of_find? List.sortedLE_insertionSort search
      obtain ⟨there, wild⟩ := mem_wildcards.mp mem
      refine ⟨before, domain, after, wildcard, parts, plain, ?_, there,
        (wildcardCoversDomain_iff wild).mp covers, ?_, rfl⟩
      · intro earlier inside plain
        exact not_covered.mp (early earlier inside plain)
      · intro w inside also
        have wild' := also.isWildcard
        exact least w (mem_wildcards.mpr ⟨inside, wild'⟩) ((wildcardCoversDomain_iff wild').mpr also)
    · cases h
  · intro domains' same
    rw [validateACMEDomains_ok_iff, validateACMEDomains_ok_iff, Redundant, Redundant]
    simp only [same]

end RedundantDomains
