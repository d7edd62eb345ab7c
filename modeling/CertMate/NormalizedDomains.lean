import CertMate.DomainNames

/-!
# The normal form of a set of domains

`NormalizeDomains` of `internal/certificate/validation.go` collects the SANs in the
order of the request and sorts what is after the primary domain. Its result depends on
the set of the names alone.
-/
namespace NormalizedDomains
open CertificateModel DomainValidation DomainNames

def normal (text : String) : String := toLower (trimSpace text)

/-- The names that the SANs stand for. -/
def names (sans : List String) : List String := (sans.map normal).filter fun d => d ≠ ""

theorem mem_names {sans : List String} {d : String} :
    d ∈ names sans ↔ d ≠ "" ∧ ∃ value ∈ sans, normal value = d := by
  rw [names, List.mem_filter, List.mem_map, decide_eq_true_iff]
  exact and_comm

theorem names_cons (value : String) (rest : List String) :
    names (value :: rest) = if normal value = "" then names rest else normal value :: names rest := by
  rw [names, List.map_cons, List.filter_cons]
  split <;> simp_all [names]

section Collect
variable {sans seen domains : List String}

theorem collectSANs_cons (value : String) (rest : List String) :
    collectSANs (value :: rest) seen =
      if normal value = "" then collectSANs rest seen
      else
        match validateDomain (normal value) true with
        | .error err => .error (.wrap ("SAN " ++ Error.quote value) err)
        | .ok () =>
          if normal value ∈ seen then collectSANs rest seen
          else collectSANs rest (seen ++ [normal value]) := by
  unfold normal
  cases valid : validateDomain (toLower (trimSpace value)) true with
  | error err => simp only [collectSANs, valid]
  | ok => simp only [collectSANs, valid]

theorem collectSANs_valid (h : collectSANs sans seen = .ok domains) :
    ∀ d ∈ names sans, validateDomain d true = .ok () := by
  induction sans generalizing seen with
  | nil => exact fun _ there => nomatch there
  | cons value rest ih =>
    rw [names_cons]
    rw [collectSANs_cons] at h
    split at h
    · rename_i empty
      rw [if_pos empty]
      exact ih h
    · rename_i some_
      rw [if_neg some_]
      split at h
      · cases h
      · rename_i valid
        rw [List.forall_mem_cons]
        refine ⟨valid, ?_⟩
        split at h
        · exact ih h
        · exact ih h

/-- With valid names the loop adds each of them once. -/
theorem collectSANs_adds (valid : ∀ d ∈ names sans, validateDomain d true = .ok ()) :
    ∃ fresh, collectSANs sans seen = .ok (seen ++ fresh) ∧ fresh.Nodup ∧
      ∀ d, d ∈ fresh ↔ d ∈ names sans ∧ d ∉ seen := by
  induction sans generalizing seen with
  | nil => exact ⟨[], by rw [List.append_nil]; rfl, List.nodup_nil, by simp [names]⟩
  | cons value rest ih =>
    rw [names_cons] at valid ⊢
    rw [collectSANs_cons]
    by_cases empty : normal value = ""
    · rw [if_pos empty] at valid ⊢
      rw [if_pos empty]
      exact ih valid
    · rw [if_neg empty] at valid ⊢
      obtain ⟨first, later⟩ := List.forall_mem_cons.mp valid
      rw [if_neg empty, first]
      dsimp only
      by_cases known : normal value ∈ seen
      · obtain ⟨fresh, added, once, members⟩ := @ih seen later
        rw [if_pos known]
        refine ⟨fresh, added, once, fun d => ?_⟩
        rw [members d, List.mem_cons]
        constructor
        · exact fun h => ⟨Or.inr h.1, h.2⟩
        · rintro ⟨rfl | there, new⟩
          · exact absurd known new
          · exact ⟨there, new⟩
      · obtain ⟨fresh, added, once, members⟩ := @ih (seen ++ [normal value]) later
        rw [if_neg known]
        refine ⟨normal value :: fresh, ?_, ?_, fun d => ?_⟩
        · rw [List.append_assoc] at added
          exact added
        · apply List.nodup_cons.mpr
          refine ⟨fun there => ?_, once⟩
          exact ((members _).mp there).2 (List.mem_append_right _ List.mem_cons_self)
        · rw [List.mem_cons, List.mem_cons, members d, List.mem_append, List.mem_singleton]
          by_cases same : d = normal value
          · subst same
            simp [known]
          · simp [same]

end Collect

/-- The primary domain, then the other names in order. -/
structure Normalized (primary : String) (sans domains : List String) (p : String) : Prop where
  valid_primary : validateDomain (normal primary) false = .ok ()
  valid_names : ∀ d ∈ names sans, validateDomain d true = .ok ()
  is_primary : p = normal primary
  rest : ∃ rest, domains = p :: rest ∧ rest.SortedLT ∧ ∀ d, d ∈ rest ↔ d ∈ names sans ∧ d ≠ p

section Result
variable {primary p : String} {sans domains : List String}

theorem normalizeDomains_eq (primary : String) (sans : List String) :
    normalizeDomains primary sans =
      match validateDomain (normal primary) false with
      | .error err => .error (.wrap "主域名" err)
      | .ok () =>
        match collectSANs sans [normal primary] with
        | .error err => .error err
        | .ok domains =>
          .ok (normal primary, domains.take 1 ++ sortStrings (domains.drop 1)) := by
  unfold normal
  cases valid : validateDomain (toLower (trimSpace primary)) false with
  | error err => simp only [normalizeDomains, valid]
  | ok =>
    cases collected : collectSANs sans [toLower (trimSpace primary)] with
    | error err => simp only [normalizeDomains, valid, collected]
    | ok domains => simp only [normalizeDomains, valid, collected]

theorem normalizeDomains_valid (h : normalizeDomains primary sans = .ok (p, domains)) :
    validateDomain (normal primary) false = .ok () ∧
      ∀ d ∈ names sans, validateDomain d true = .ok () := by
  rw [normalizeDomains_eq] at h
  split at h
  · cases h
  · rename_i valid
    split at h
    · cases h
    · rename_i found
      exact ⟨valid, collectSANs_valid found⟩

theorem sortStrings_strict {values : List String} (once : values.Nodup) :
    (sortStrings values).SortedLT := by
  apply List.SortedLE.sortedLT_of_nodup
  · exact List.sortedLE_insertionSort
  · exact (List.perm_insertionSort _ values).nodup_iff.mpr once

theorem normalizeDomains_made (valid : validateDomain (normal primary) false = .ok ())
    (valid_names : ∀ d ∈ names sans, validateDomain d true = .ok ()) :
    ∃ p domains, normalizeDomains primary sans = .ok (p, domains) ∧
      Normalized primary sans domains p := by
  obtain ⟨fresh, added, once, members⟩ := @collectSANs_adds sans [normal primary] valid_names
  refine ⟨normal primary, normal primary :: sortStrings fresh, ?_, valid, valid_names, rfl,
    sortStrings fresh, rfl, sortStrings_strict once, fun d => ?_⟩
  · rw [normalizeDomains_eq, valid, added]
    rfl
  · rw [sortStrings, List.mem_insertionSort, members d, List.mem_singleton]

theorem normalizeDomains_iff :
    normalizeDomains primary sans = .ok (p, domains) ↔ Normalized primary sans domains p := by
  constructor
  · intro h
    obtain ⟨valid, valid_names⟩ := normalizeDomains_valid h
    obtain ⟨p', domains', made, normalized⟩ := normalizeDomains_made valid valid_names
    rw [made] at h
    cases h
    exact normalized
  · intro normalized
    obtain ⟨valid, valid_names, rfl, rest, rfl, sorted, members⟩ := normalized
    obtain ⟨p', domains', made, -, -, rfl, rest', rfl, sorted', members'⟩ :=
      normalizeDomains_made valid valid_names
    have same : rest' = rest := sorted'.eq_of_mem_iff sorted fun d => by rw [members d, members' d]
    rw [made, same]

/-- The same names give the same result. -/
theorem normalizeDomains_congr {sans' : List String}
    (same : ∀ d, d ∈ names sans ↔ d ∈ names sans') :
    (normalizeDomains primary sans).toOption = (normalizeDomains primary sans').toOption := by
  have ok_iff : ∀ (result : Except Error (String × List String)) out,
      result.toOption = some out ↔ result = .ok out := by
    intro result out
    cases result with
    | error err => exact iff_of_false (fun h => nomatch h) fun h => nomatch h
    | ok value => exact ⟨fun h => by cases h; rfl, fun h => by cases h; rfl⟩
  have moved : ∀ {one other : List String} {domains p},
      (∀ d, d ∈ names one ↔ d ∈ names other) → Normalized primary one domains p →
        Normalized primary other domains p := by
    intro one other domains p same normalized
    obtain ⟨valid, valid_names, whose, rest, parts, sorted, members⟩ := normalized
    refine ⟨valid, fun d there => valid_names d ((same d).mpr there), whose, rest, parts, sorted,
      fun d => ?_⟩
    rw [members d, same d]
  apply Option.ext
  rintro ⟨p, domains⟩
  rw [ok_iff, ok_iff, normalizeDomains_iff, normalizeDomains_iff]
  exact ⟨moved same, moved fun d => (same d).symm⟩

/-- A domain is its own normal form. -/
theorem normal_domain {d : String} (valid : Domain d) : normal d = d := by
  rw [normal, trimSpace_ascii valid.runes, toLower_ascii valid.runes]

theorem Normalized.mem (h : Normalized primary sans domains p) (d : String) :
    d ∈ domains ↔ d = normal primary ∨ d ∈ names sans := by
  obtain ⟨-, -, rfl, rest, rfl, -, members⟩ := h
  rw [List.mem_cons, members d]
  by_cases first : d = normal primary
  · exact iff_of_true (Or.inl first) (Or.inl first)
  · exact or_congr_right (and_iff_left first)

theorem Normalized.valid_domains (h : Normalized primary sans domains p) :
    ∀ d ∈ domains, validateDomain d true = .ok () := by
  intro d there
  rcases (h.mem d).mp there with rfl | named
  · have valid := (validateDomain_iff.mp h.valid_primary).1
    exact validateDomain_iff.mpr ⟨valid, fun _ => rfl⟩
  · exact h.valid_names d named

/-- The result is its own normal form. -/
theorem Normalized.again
    (h : Normalized primary sans domains p) : Normalized p domains domains p := by
  have valid := h.valid_domains
  have own : ∀ d ∈ domains, normal d = d :=
    fun d there => normal_domain (validateDomain_iff.mp (valid d there)).1
  have same : ∀ d, d ∈ names domains ↔ d ∈ domains := by
    intro d
    rw [mem_names]
    constructor
    · rintro ⟨-, value, there, rfl⟩
      rwa [own value there]
    · intro there
      exact ⟨(validateDomain_iff.mp (valid d there)).1.nonempty, d, there, own d there⟩
  obtain ⟨valid_primary, -, whose, rest, rfl, sorted, members⟩ := h
  have first : normal p = p := own p List.mem_cons_self
  have valid_p : validateDomain (normal p) false = .ok () := by
    rw [← whose] at valid_primary
    rw [first]
    exact valid_primary
  refine ⟨valid_p, fun d there => valid d ((same d).mp there), first.symm, rest, rfl,
    sorted, fun d => ?_⟩
  rw [same d, List.mem_cons]
  constructor
  · intro there
    exact ⟨Or.inr there, ((members d).mp there).2⟩
  · rintro ⟨there, other⟩
    exact there.resolve_left other

end Result

/-- The texts are the same up to the case of ASCII letters. -/
def Recased (v w : String) : Prop := v.toList.map Char.toLower = w.toList.map Char.toLower

theorem recased_rune (c : Char) :
    lowerRune c.toLower = lowerRune c ∧ isSpace c.toLower = isSpace c := by
  by_cases small : c.toNat < 128
  · have all : ∀ n : Fin 128, lowerRune (Char.ofNat n).toLower = lowerRune (Char.ofNat n) ∧
        isSpace (Char.ofNat n).toLower = isSpace (Char.ofNat n) := by
      decide +kernel
    have here := all ⟨c.toNat, small⟩
    rwa [Char.ofNat_toNat] at here
  · have same : c.toLower = c := by
      rw [Char.toLower, dif_neg]
      rintro ⟨-, upper⟩
      have below : c.toNat ≤ 90 := UInt32.le_iff_toNat_le.mp upper
      omega
    rw [same]
    exact ⟨rfl, rfl⟩

theorem normal_recased {v w : String} (h : Recased v w) : normal v = normal w := by
  -- lowering the case first changes neither what is trimmed nor the result
  have lowered : ∀ text : String, normal text =
      String.ofList (((((text.toList.map Char.toLower).dropWhile isSpace).reverse.dropWhile
        isSpace).reverse).map lowerRune) := by
    intro text
    have spaces : isSpace ∘ Char.toLower = isSpace := funext fun c => (recased_rune c).2
    have lower : lowerRune ∘ Char.toLower = lowerRune := funext fun c => (recased_rune c).1
    rw [List.dropWhile_map, spaces, ← List.map_reverse, List.dropWhile_map, spaces,
      ← List.map_reverse, List.map_map, lower, normal, toLower, trimSpace, String.toList_ofList]
  rw [lowered v, lowered w, h]

/-- The SANs are those of the other list, with repetitions, in another order and with
letters in another case. -/
theorem names_recased {sans sans' : List String}
    (known : ∀ v ∈ sans, ∃ w ∈ sans', Recased v w) : ∀ d ∈ names sans, d ∈ names sans' := by
  intro d there
  obtain ⟨some_, v, mem, rfl⟩ := mem_names.mp there
  obtain ⟨w, mem', same⟩ := known v mem
  exact mem_names.mpr ⟨some_, w, mem', (normal_recased same).symm⟩

/-- The result is determined by the names and is their normal form. -/
theorem normalizeDomains_canonical (primary : String) (sans : List String) :
    ((∃ result, normalizeDomains primary sans = .ok result) ↔
        validateDomain (normal primary) false = .ok () ∧
          ∀ d ∈ names sans, validateDomain d true = .ok ()) ∧
      (∀ p domains, normalizeDomains primary sans = .ok (p, domains) →
        p = normal primary ∧
          (∃ rest, domains = p :: rest ∧ rest.Pairwise (· < ·) ∧ p ∉ rest) ∧
          (∀ d, d ∈ domains ↔ d = normal primary ∨ d ∈ names sans) ∧
          (∀ d ∈ domains, validateDomain d true = .ok ()) ∧
          normalizeDomains p domains = .ok (p, domains)) ∧
      (∀ sans', (∀ d, d ∈ names sans ↔ d ∈ names sans') →
        (normalizeDomains primary sans).toOption = (normalizeDomains primary sans').toOption) ∧
      (∀ sans', (∀ v ∈ sans, ∃ w ∈ sans', Recased v w) → (∀ w ∈ sans', ∃ v ∈ sans, Recased w v) →
        (normalizeDomains primary sans).toOption = (normalizeDomains primary sans').toOption) := by
  refine ⟨?_, ?_, fun sans' => normalizeDomains_congr, ?_⟩
  · constructor
    · rintro ⟨⟨p, domains⟩, h⟩
      exact normalizeDomains_valid h
    · rintro ⟨valid, valid_names⟩
      obtain ⟨p, domains, made, -⟩ := normalizeDomains_made valid valid_names
      exact ⟨(p, domains), made⟩
  · intro p domains h
    have normalized := normalizeDomains_iff.mp h
    obtain ⟨rest, parts, sorted, members⟩ := normalized.rest
    refine ⟨normalized.is_primary, ⟨rest, parts, sorted.pairwise, fun there => ?_⟩, normalized.mem,
      normalized.valid_domains, normalizeDomains_iff.mpr normalized.again⟩
    exact ((members p).mp there).2 rfl
  · intro sans' forth back
    apply normalizeDomains_congr
    exact fun d => ⟨names_recased forth d, names_recased back d⟩

/-- Two SANs in capitals and twice, in one order and the other. -/
theorem normalizeDomains_canonical_recased :
    normalizeDomains "www.example.com" ["www.example.com", "a.example.com", "b.example.com"] =
        .ok ("www.example.com", ["www.example.com", "a.example.com", "b.example.com"]) ∧
      (normalizeDomains "www.example.com" ["b.example.com", "A.example.com"]).toOption =
        (normalizeDomains "www.example.com"
          ["a.example.com", "B.Example.com", "b.example.com"]).toOption := by
  have made : normalizeDomains "www.example.com" ["b.example.com", "A.example.com"] =
      .ok ("www.example.com", ["www.example.com", "a.example.com", "b.example.com"]) := by
    decide +kernel
  obtain ⟨-, canonical, -, recased⟩ :=
    normalizeDomains_canonical "www.example.com" ["b.example.com", "A.example.com"]
  refine ⟨(canonical _ _ made).2.2.2.2, recased _ ?_ ?_⟩
  · unfold Recased
    decide +kernel
  · unfold Recased
    decide +kernel

end NormalizedDomains
