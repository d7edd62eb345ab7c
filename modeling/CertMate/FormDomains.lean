import CertMate.RedundantDomains

/-!
# The domains of the form

`findRedundantACMEDomain` of `web/src/validation.ts`, over ASCII texts. There one
character is one code unit, `toLowerCase` changes the letters alone and the default
order of `sort` is that of the characters.
-/
namespace FormDomains
open CertificateModel DomainValidation DomainNames NormalizedDomains RedundantDomains

/-- The white space and line terminators of `trim`. -/
def formSpace (c : Char) : Bool :=
  c.val ∈ ([0x09, 0x0A, 0x0B, 0x0C, 0x0D, 0x20, 0xA0, 0x1680, 0x2028, 0x2029, 0x202F, 0x205F,
    0x3000, 0xFEFF] : List UInt32) || (0x2000 ≤ c.val && c.val ≤ 0x200A)

def trim (text : String) : String :=
  String.ofList (((text.toList.dropWhile formSpace).reverse.dropWhile formSpace).reverse)

def toLowerCase (text : String) : String := String.ofList (text.toList.map Char.toLower)

structure RedundantACMEDomain where
  domain : String
  wildcard : String
  primary : Bool
  deriving DecidableEq, Repr

def formCovers (wildcard domain : String) : Bool :=
  let suffix := '.' :: wildcard.toList.drop 2
  if !suffix.isSuffixOf domain.toList then false
  else
    let leftmostLabel := domain.toList.take (domain.toList.length - suffix.length)
    !leftmostLabel.isEmpty && !leftmostLabel.contains '.'

/-- The two nested loops. -/
def findCovered (normalizedPrimary : String) (wildcards : List String) :
    List String → Option RedundantACMEDomain
  | [] => none
  | domain :: rest =>
    if domain = "" ∨ isWildcard domain then findCovered normalizedPrimary wildcards rest
    else
      match wildcards.find? fun wildcard => formCovers wildcard domain with
      | some wildcard => some ⟨domain, wildcard, domain = normalizedPrimary⟩
      | none => findCovered normalizedPrimary wildcards rest

/-- `domains` in the form, with the primary domain in front. -/
def formDomains (primary : String) (sans : List String) : List String :=
  toLowerCase (trim primary) ::
    (sans.map fun domain => toLowerCase (trim domain)).filter fun domain => domain ≠ ""

def findRedundantACMEDomain (primary : String) (sans : List String) : Option RedundantACMEDomain :=
  let domains := formDomains primary sans
  let wildcards := sortStrings (domains.filter isWildcard).eraseDups
  findCovered (toLowerCase (trim primary)) wildcards domains

example : findRedundantACMEDomain "www.example.com" ["*.example.com "] =
    some ⟨"www.example.com", "*.example.com", true⟩ := by
  decide +kernel

def Ascii (text : String) : Prop := ∀ c ∈ text.toList, c.toNat < 128

theorem ascii_rune {c : Char} (small : c.toNat < 128) :
    formSpace c = isSpace c ∧ c.toLower = lowerRune c := by
  have all : ∀ n : Fin 128, formSpace (Char.ofNat n) = isSpace (Char.ofNat n) ∧
      (Char.ofNat n).toLower = lowerRune (Char.ofNat n) := by
    decide +kernel
  have here := all ⟨c.toNat, small⟩
  rwa [Char.ofNat_toNat] at here

theorem normal_of_ascii {text : String} (ascii : Ascii text) :
    toLowerCase (trim text) = normal text := by
  have drops : ∀ l : List Char, (∀ c ∈ l, c.toNat < 128) →
      l.dropWhile formSpace = l.dropWhile isSpace := by
    intro l small
    induction l with
    | nil => rfl
    | cons c rest ih =>
      obtain ⟨first, later⟩ := List.forall_mem_cons.mp small
      rw [List.dropWhile_cons, List.dropWhile_cons, (ascii_rune first).1, ih later]
  have kept : ∀ c ∈ text.toList.dropWhile isSpace, c.toNat < 128 :=
    fun c there => ascii c ((List.dropWhile_suffix _).subset there)
  have turned : ∀ c ∈ (text.toList.dropWhile isSpace).reverse, c.toNat < 128 :=
    fun c there => kept c (List.mem_reverse.mp there)
  have same : trim text = trimSpace text := by
    rw [trim, trimSpace, drops _ ascii, drops _ turned]
  rw [same, toLowerCase, normal, toLower]
  congr 1
  apply List.map_congr_left
  intro c there
  rw [trimSpace, String.toList_ofList] at there
  have inside := (List.dropWhile_suffix _).subset (List.mem_reverse.mp there)
  exact (ascii_rune (turned c inside)).2

theorem formCovers_eq {wildcard : String} (wild : isWildcard wildcard) (domain : String) :
    formCovers wildcard domain = wildcardCoversDomain wildcard domain := by
  rw [formCovers, wildcardCoversDomain, trimWildcard, if_pos wild, String.toList_ofList]
  cases ('.' :: wildcard.toList.drop 2).isSuffixOf domain.toList with
  | false => rfl
  | true => rfl

/-- The loops of the form find what those of the server find. -/
theorem findCovered_eq {wildcards : List String}
    (wild : ∀ wildcard ∈ wildcards, isWildcard wildcard)
    (primary : String) (domains : List String) :
    findCovered primary wildcards domains = (findRedundant wildcards domains).map
      fun (domain, wildcard) => ⟨domain, wildcard, domain = primary⟩ := by
  induction domains with
  | nil => rfl
  | cons domain rest ih =>
    have search : (wildcards.find? fun wildcard => formCovers wildcard domain) =
        wildcards.find? fun wildcard => wildcardCoversDomain wildcard domain := by
      apply List.find?_congr
      intro wildcard there
      exact formCovers_eq (wild wildcard there) domain
    rw [findCovered, findRedundant]
    by_cases plain : isWildcard domain
    · rw [if_pos (Or.inr plain), if_pos plain, ih]
    · rw [if_neg plain]
      by_cases empty : domain = ""
      · have missed : (wildcards.find? fun wildcard => wildcardCoversDomain wildcard domain) =
            none := by
          rw [List.find?_eq_none]
          intro wildcard there covers
          obtain ⟨label, base, -, parts, -⟩ :=
            (wildcardCoversDomain_iff (wild wildcard there)).mp covers
          rw [empty] at parts
          exact absurd parts.symm (List.append_ne_nil_of_right_ne_nil _ (List.cons_ne_nil _ _))
        rw [if_pos (Or.inl empty), missed]
        exact ih
      · rw [if_neg (by rintro (e | w); exacts [empty e, plain w]), search]
        cases wildcards.find? fun wildcard => wildcardCoversDomain wildcard domain with
        | some wildcard => rfl
        | none => exact ih

section Form
variable {primary p : String} {sans domains : List String}

theorem mem_formDomains (ascii : Ascii primary) (ascii_sans : ∀ domain ∈ sans, Ascii domain)
    (d : String) : d ∈ formDomains primary sans ↔ d = normal primary ∨ d ∈ names sans := by
  rw [formDomains, normal_of_ascii ascii, List.mem_cons, names,
    List.map_congr_left fun domain there => normal_of_ascii (ascii_sans domain there)]

theorem findRedundantACMEDomain_eq (primary : String) (sans : List String) :
    findRedundantACMEDomain primary sans =
      (findRedundant (sortStrings ((formDomains primary sans).filter isWildcard).eraseDups)
        (formDomains primary sans)).map
          fun (domain, wildcard) => ⟨domain, wildcard, domain = toLowerCase (trim primary)⟩ := by
  apply findCovered_eq
  intro wildcard there
  rw [sortStrings, List.mem_insertionSort, List.mem_eraseDups, List.mem_filter] at there
  exact there.2

/-- The form reports a pair when the server refuses the domains, and the pair is one of
theirs. -/
theorem form_agrees (ascii : Ascii primary) (ascii_sans : ∀ domain ∈ sans, Ascii domain)
    (h : normalizeDomains primary sans = .ok (p, domains)) :
    ((findRedundantACMEDomain primary sans).isSome ↔
        validateACMEDomains p domains ≠ .ok ()) ∧
      ∀ found, findRedundantACMEDomain primary sans = some found →
        found.domain ∈ domains ∧ found.wildcard ∈ domains ∧ ¬ isWildcard found.domain ∧
          Covers found.wildcard found.domain ∧ (found.primary ↔ found.domain = p) := by
  have normalized := normalizeDomains_iff.mp h
  have members : ∀ d, d ∈ formDomains primary sans ↔ d ∈ domains := by
    intro d
    rw [mem_formDomains ascii ascii_sans, normalized.mem d]
  have wildcards : ∀ w, w ∈ sortStrings ((formDomains primary sans).filter isWildcard).eraseDups ↔
      w ∈ domains ∧ isWildcard w := by
    intro w
    rw [sortStrings, List.mem_insertionSort, List.mem_eraseDups, List.mem_filter, members w]
  rw [findRedundantACMEDomain_eq, Option.isSome_map, normal_of_ascii ascii,
    ← normalized.is_primary]
  constructor
  · rw [Option.isSome_iff_ne_none]
    apply not_congr
    rw [findRedundant_none, validateACMEDomains_ok_iff]
    constructor
    · rintro free ⟨domain, there, wildcard, mem, plain, covers⟩
      have wild := covers.isWildcard
      exact free domain ((members domain).mpr there) plain wildcard
        ((wildcards wildcard).mpr ⟨mem, wild⟩) ((wildcardCoversDomain_iff wild).mpr covers)
    · intro free domain there plain wildcard mem covers
      obtain ⟨inside, wild⟩ := (wildcards wildcard).mp mem
      exact free ⟨domain, (members domain).mp there, wildcard, inside, plain,
        (wildcardCoversDomain_iff wild).mp covers⟩
  · intro found search
    obtain ⟨⟨domain, wildcard⟩, pair, rfl⟩ := Option.map_eq_some_iff.mp search
    obtain ⟨before, after, parts, plain, -, first⟩ := findRedundant_some pair
    have there : domain ∈ formDomains primary sans := by
      rw [parts]
      exact List.mem_append_right _ List.mem_cons_self
    obtain ⟨inside, wild⟩ := (wildcards wildcard).mp (List.mem_of_find?_eq_some first)
    obtain ⟨covers, -⟩ := List.find?_eq_some_iff_append.mp first
    exact ⟨(members domain).mp there, inside, plain, (wildcardCoversDomain_iff wild).mp covers,
      decide_eq_true_iff⟩

end Form

/-- In the form the plain SAN comes before the one the server's order has first. -/
theorem form_agrees_sample :
    ((findRedundantACMEDomain " Example.com" ["www.example.com", "*.EXAMPLE.com", "api.example.com"]).isSome ↔
        validateACMEDomains "example.com"
          ["example.com", "*.example.com", "api.example.com", "www.example.com"] ≠ .ok ()) ∧
      ∀ found, findRedundantACMEDomain " Example.com"
          ["www.example.com", "*.EXAMPLE.com", "api.example.com"] = some found →
        found.domain ∈ ["example.com", "*.example.com", "api.example.com", "www.example.com"] ∧
          found.wildcard ∈ ["example.com", "*.example.com", "api.example.com", "www.example.com"] ∧
          ¬ isWildcard found.domain ∧ Covers found.wildcard found.domain ∧
          (found.primary ↔ found.domain = "example.com") := by
  have ascii : ∀ texts : List String,
      (texts.all fun text => text.toList.all fun c => decide (c.toNat < 128)) = true →
        ∀ text ∈ texts, ∀ c ∈ text.toList, c.toNat < 128 := by
    intro texts all text there c within
    exact of_decide_eq_true (List.all_eq_true.mp (List.all_eq_true.mp all text there) c within)
  apply form_agrees
  · exact ascii [" Example.com"] (by decide) _ List.mem_cons_self
  · exact ascii ["www.example.com", "*.EXAMPLE.com", "api.example.com"] (by decide)
  · decide +kernel

end FormDomains
