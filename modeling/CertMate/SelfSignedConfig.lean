import CertMate.LineTexts
import CertMate.NormalizedDomains

/-!
# The OpenSSL configuration

`buildConfig` of `internal/certificate/selfsigned/engine.go`, and a reader of sections and
`key = value` entries. For names that `NormalizeDomains` has let through the configuration is
read as what the request asks for.
-/
namespace SelfSignedConfig
open LineTexts DomainValidation DomainNames NormalizedDomains

/-- The entry of the name number `index`, with its line feed. -/
def entryText (domain : String) (index : Nat) : String :=
  "DNS." ++ toString (index + 1) ++ " = " ++ domain ++ "\n"

def buildConfig (primaryDomain : String) (domains : List String) : String :=
  let builder := "[req]\nprompt = no\ndistinguished_name = dn\nx509_extensions = v3_req\n\n" ++
    "[dn]\nCN = "
  let builder := builder ++ primaryDomain
  let builder := builder ++ ("\n\n[v3_req]\nbasicConstraints = critical,CA:FALSE\n" ++
    "keyUsage = critical,digitalSignature,keyEncipherment\nextendedKeyUsage = serverAuth\n" ++
    "subjectAltName = @alt_names\n\n[alt_names]\n")
  domains.zipIdx.foldl (fun builder (domain, index) => builder ++ entryText domain index) builder

structure Section where
  name : String
  entries : List (String × String)
  deriving DecidableEq, Repr

inductive Item where
  | blank
  | header (name : String)
  | entry (key value : String)
  deriving DecidableEq, Repr

def blank (c : Char) : Bool := c = ' ' || c = '\t' || c = '\r'

def trimmed (l : List Char) : String := String.ofList (trim blank l)

def readEntry (line : List Char) : Option Item :=
  (line.findIdx? (· = '=')).map fun index =>
    .entry (trimmed (line.take index)) (trimmed (line.drop (index + 1)))

def readLine (line : List Char) : Option Item :=
  match trim blank line with
  | [] => some .blank
  | '[' :: rest =>
    if rest.getLast? = some ']' then some (.header (trimmed rest.dropLast)) else none
  | line => readEntry line

/-- An entry belongs to the section that is open. -/
def addItem (sections : List Section) : Item → Option (List Section)
  | .blank => some sections
  | .header name => some (sections ++ [⟨name, []⟩])
  | .entry key value =>
    sections.getLast?.map fun s =>
      sections.dropLast ++ [{ s with entries := s.entries ++ [(key, value)] }]

def readConfig (text : String) : Option (List Section) := do
  let items ← (records text.toList).mapM readLine
  items.foldlM addItem []

def altName (index : Nat) : String := "DNS." ++ toString (index + 1)

/-- The sections of a request, with every entry. -/
def requested (primaryDomain : String) (domains : List String) : List Section :=
  [⟨"req", [("prompt", "no"), ("distinguished_name", "dn"), ("x509_extensions", "v3_req")]⟩,
    ⟨"dn", [("CN", primaryDomain)]⟩,
    ⟨"v3_req", [("basicConstraints", "critical,CA:FALSE"),
      ("keyUsage", "critical,digitalSignature,keyEncipherment"),
      ("extendedKeyUsage", "serverAuth"), ("subjectAltName", "@alt_names")]⟩,
    ⟨"alt_names", domains.zipIdx.map fun (domain, index) => (altName index, domain)⟩]

/-- What the syntax of OpenSSL treats specially. -/
def special (c : Char) : Bool := c ∈ "#$\\\"'`\n\r".toList

/-- The configuration is that of the request, no key of a section comes twice, and no value
can be taken for anything else. -/
structure Carries (text : String) (primaryDomain : String) (domains : List String) : Prop where
  sections : readConfig text = some (requested primaryDomain domains)
  keys : ∀ s ∈ requested primaryDomain domains, (s.entries.map Prod.fst).Nodup
  plain : ∀ d ∈ primaryDomain :: domains, ∀ c ∈ d.toList, special c = false

def linesBefore : List (List Char) :=
  ["[req]", "prompt = no", "distinguished_name = dn", "x509_extensions = v3_req", "",
    "[dn]"].map String.toList

def linesAfter : List (List Char) :=
  ["", "[v3_req]", "basicConstraints = critical,CA:FALSE",
    "keyUsage = critical,digitalSignature,keyEncipherment", "extendedKeyUsage = serverAuth",
    "subjectAltName = @alt_names", "", "[alt_names]"].map String.toList

def entryLine (key value : String) : List Char := key.toList ++ " = ".toList ++ value.toList

def nameLine (x : String × Nat) : List Char := entryLine (altName x.2) x.1

def configLines (primaryDomain : String) (domains : List String) : List (List Char) :=
  linesBefore ++ [entryLine "CN" primaryDomain] ++ linesAfter ++ domains.zipIdx.map nameLine

theorem toList_foldl (xs : List (String × Nat)) (builder : String) :
    (xs.foldl (fun builder (domain, index) => builder ++ entryText domain index) builder).toList =
      builder.toList ++ ended (xs.map nameLine) := by
  induction xs generalizing builder with
  | nil => simp
  | cons x rest ih =>
    have one : (entryText x.1 x.2).toList = nameLine x ++ ['\n'] := by
      simp [entryText, nameLine, entryLine, altName]
    rw [List.foldl_cons, ih, List.map_cons, ended_cons, String.toList_append, one]
    simp

theorem toList_buildConfig (primaryDomain : String) (domains : List String) :
    (buildConfig primaryDomain domains).toList = ended (configLines primaryDomain domains) := by
  have before : ("[req]\nprompt = no\ndistinguished_name = dn\nx509_extensions = v3_req\n\n" ++
      "[dn]\nCN = ").toList = ended linesBefore ++ ("CN".toList ++ " = ".toList) := by
    decide +kernel
  have after : ("\n\n[v3_req]\nbasicConstraints = critical,CA:FALSE\n" ++
      "keyUsage = critical,digitalSignature,keyEncipherment\nextendedKeyUsage = serverAuth\n" ++
      "subjectAltName = @alt_names\n\n[alt_names]\n").toList = '\n' :: ended linesAfter := by
    decide +kernel
  rw [buildConfig, toList_foldl, String.toList_append, String.toList_append, before, after,
    configLines, ended_append, ended_append, ended_append, ended_cons, entryLine]
  simp

/-- A value that stays as it is written. -/
structure Bare (value : List Char) : Prop where
  nonempty : value ≠ []
  runes : ∀ c ∈ value, blank c = false

/-- A key that is found in front of its value. -/
structure Key (key : List Char) : Prop extends Bare key where
  sign : '=' ∉ key
  bracket : '[' ∉ key

theorem trimmed_blanks {front l back : List Char} (before : ∀ c ∈ front, blank c = true)
    (after : ∀ c ∈ back, blank c = true) (bare : Bare l) :
    trimmed (front ++ l ++ back) = String.ofList l := by
  rw [trimmed, trim_blanks before after bare.runes]

theorem readLine_entry {key value : List Char} (h : Key key) (bare : Bare value) :
    readLine (key ++ " = ".toList ++ value) =
      some (.entry (String.ofList key) (String.ofList value)) := by
  have whole : trim blank (key ++ " = ".toList ++ value) = key ++ " = ".toList ++ value := by
    apply trim_eq_self
    · intro c found
      obtain ⟨k, rest, rfl⟩ := List.exists_cons_of_ne_nil h.nonempty
      apply h.runes
      simp only [List.cons_append, List.head?_cons, Option.some.injEq] at found
      rw [← found]
      exact List.mem_cons_self
    · intro c found
      apply bare.runes
      rw [List.getLast?_append_of_ne_nil _ bare.nonempty] at found
      exact List.mem_of_getLast? found
  have sign : (key ++ " = ".toList ++ value).findIdx? (· = '=') = some (key.length + 1) := by
    have none : key.findIdx? (· = '=') = none := by
      rw [List.findIdx?_eq_none_iff]
      intro c there
      have other : c ≠ '=' := by
        rintro rfl
        exact h.sign there
      simpa using other
    rw [List.append_assoc, List.findIdx?_append, none]
    simp [List.findIdx?_cons]
    omega
  have before : (key ++ " = ".toList ++ value).take (key.length + 1) = key ++ [' '] := by
    rw [List.append_assoc, List.take_append, List.take_of_length_le (by omega)]
    simp
  have after : (key ++ " = ".toList ++ value).drop (key.length + 1 + 1) = [' '] ++ value := by
    have two : key.length + 1 + 1 - key.length = 2 := by omega
    rw [List.append_assoc, List.drop_append, List.drop_eq_nil_of_le (by omega), two]
    rfl
  have read : readEntry (key ++ " = ".toList ++ value) =
      some (.entry (String.ofList key) (String.ofList value)) := by
    have spaces : ∀ c ∈ [' '], blank c = true := by
      intro c there
      rw [List.mem_singleton.mp there]
      rfl
    have own : trimmed ([] ++ key ++ [' ']) = String.ofList key :=
      trimmed_blanks (fun _ hc => nomatch hc) spaces h.toBare
    have its : trimmed ([' '] ++ value ++ []) = String.ofList value :=
      trimmed_blanks spaces (fun _ hc => nomatch hc) bare
    rw [List.nil_append] at own
    rw [List.append_nil] at its
    rw [readEntry, sign, Option.map_some, before, after, own, its]
  unfold readLine
  rw [whole]
  obtain ⟨k, rest, rfl⟩ := List.exists_cons_of_ne_nil h.nonempty
  rw [List.cons_append, List.cons_append] at read ⊢
  split
  · rename_i none
    cases none
  · rename_i opened
    have first := (List.cons.inj opened).1
    exact absurd (first ▸ List.mem_cons_self) h.bracket
  · exact read

theorem domainRune_plain {c : Char} (h : domainRune c) :
    blank c = false ∧ special c = false ∧ c ≠ '=' ∧ c ≠ '[' ∧ c ≠ '\n' := by
  have all : ∀ n : Fin 128, domainRune (Char.ofNat n) → blank (Char.ofNat n) = false ∧
      special (Char.ofNat n) = false ∧ Char.ofNat n ≠ '=' ∧ Char.ofNat n ≠ '[' ∧
        Char.ofNat n ≠ '\n' := by
    decide +kernel
  have here := all ⟨c.toNat, domainRune_small h⟩
  rw [Char.ofNat_toNat] at here
  exact here h

theorem bare_domain {d : String} (h : Domain d) : Bare d.toList where
  nonempty none := h.nonempty (String.toList_eq_nil_iff.mp none)
  runes c there := (domainRune_plain (h.runes c there)).1

theorem toList_altName (index : Nat) :
    (altName index).toList = "DNS.".toList ++ Nat.toDigits 10 (index + 1) := by
  rw [altName, String.toList_append]
  exact congrArg _ Nat.toList_repr

theorem altName_inj {m n : Nat} (h : altName m = altName n) : m = n := by
  have same : Nat.toDigits 10 (m + 1) = Nat.toDigits 10 (n + 1) := by
    have texts := congrArg String.toList h
    rw [toList_altName, toList_altName] at texts
    exact List.append_cancel_left texts
  have values := congrArg (Nat.ofDigitChars 10 · 0) same
  simp only [Nat.ofDigitChars_toDigits (b := 10) (by decide) (by decide)] at values
  omega

theorem altName_runes (index : Nat) :
    ∀ c ∈ (altName index).toList, blank c = false ∧ c ≠ '=' ∧ c ≠ '[' ∧ c ≠ '\n' := by
  have letters : "DNS.".toList.all
      (fun c => !blank c && c ≠ '=' && c ≠ '[' && c ≠ '\n') = true := by
    decide
  intro c there
  rw [toList_altName] at there
  rcases List.mem_append.mp there with there | there
  · simpa [and_assoc] using List.all_eq_true.mp letters c there
  · have digit := Nat.isDigit_of_mem_toDigits (by decide) (by decide) there
    have rune : domainRune c := by
      apply domainRune_of_label
      simp only [Char.isDigit, Bool.and_eq_true, decide_eq_true_eq] at digit
      exact labelRune_iff.mpr (Or.inr (Or.inl digit))
    obtain ⟨plain, -, sign, bracket, line⟩ := domainRune_plain rune
    exact ⟨plain, sign, bracket, line⟩

theorem key_altName (index : Nat) : Key (altName index).toList where
  nonempty := by
    rw [toList_altName]
    exact List.append_ne_nil_of_left_ne_nil (by decide) _
  runes c there := (altName_runes index c there).1
  sign there := (altName_runes index _ there).2.1 rfl
  bracket there := (altName_runes index _ there).2.2.1 rfl

theorem readLine_nameLine {x : String × Nat} (h : Domain x.1) :
    readLine (nameLine x) = some (.entry (altName x.2) x.1) := by
  rw [nameLine, entryLine, readLine_entry (key_altName x.2) (bare_domain h), String.ofList_toList,
    String.ofList_toList]

/-- No line of the text holds a line feed. -/
theorem whole_configLines {p : String} {domains : List String} (valid : Domain p)
    (valid_domains : ∀ d ∈ domains, Domain d) : ∀ line ∈ configLines p domains, '\n' ∉ line := by
  have name : ∀ d, Domain d → '\n' ∉ d.toList := fun d h there =>
    (domainRune_plain (h.runes _ there)).2.2.2.2 rfl
  have entry : ∀ key value : String, '\n' ∉ key.toList → '\n' ∉ value.toList →
      '\n' ∉ entryLine key value := by
    intro key value hk hv there
    rcases List.mem_append.mp there with there | there
    · rcases List.mem_append.mp there with there | there
      · exact hk there
      · exact absurd there (by decide)
    · exact hv there
  intro line there
  simp only [configLines, List.mem_append, List.mem_singleton, List.mem_map] at there
  rcases there with ((there | rfl) | there) | ⟨x, hx, rfl⟩
  · revert line
    decide +kernel
  · exact entry _ _ (by decide) (name p valid)
  · revert line
    decide +kernel
  · have known : x.1 ∈ domains := List.fst_mem_of_mem_zipIdx hx
    exact entry _ _ (fun h => (altName_runes x.2 _ h).2.2.2 rfl) (name x.1 (valid_domains _ known))

theorem mapM_map {α : Type} {f : α → List Char} {g : α → Item} {xs : List α}
    (h : ∀ x ∈ xs, readLine (f x) = some (g x)) : (xs.map f).mapM readLine = some (xs.map g) := by
  induction xs with
  | nil => rfl
  | cons x rest ih =>
    rw [List.map_cons, List.mapM_cons, h x List.mem_cons_self,
      ih fun y hy => h y (List.mem_cons_of_mem _ hy)]
    rfl

/-- Entries go to the section that is open. -/
theorem foldlM_entries (xs : List (String × String)) (closed : List Section) (open_ : Section) :
    (xs.map fun x => Item.entry x.1 x.2).foldlM addItem (closed ++ [open_]) =
      some (closed ++ [{ open_ with entries := open_.entries ++ xs }]) := by
  induction xs generalizing open_ with
  | nil => simp
  | cons x rest ih =>
    have one : addItem (closed ++ [open_]) (.entry x.1 x.2) =
        some (closed ++ [{ open_ with entries := open_.entries ++ [x] }]) := by
      simp [addItem]
    rw [List.map_cons, List.foldlM_cons, one]
    exact (ih _).trans (by simp)

def itemsBefore : List Item :=
  [.header "req", .entry "prompt" "no", .entry "distinguished_name" "dn",
    .entry "x509_extensions" "v3_req", .blank, .header "dn"]

def itemsAfter : List Item :=
  [.blank, .header "v3_req", .entry "basicConstraints" "critical,CA:FALSE",
    .entry "keyUsage" "critical,digitalSignature,keyEncipherment",
    .entry "extendedKeyUsage" "serverAuth", .entry "subjectAltName" "@alt_names", .blank,
    .header "alt_names"]

/-- The configuration is read as what it was made for. -/
theorem readConfig_buildConfig {p : String} {domains : List String} (valid : Domain p)
    (valid_domains : ∀ d ∈ domains, Domain d) :
    readConfig (buildConfig p domains) = some (requested p domains) := by
  have before : linesBefore.mapM readLine = some itemsBefore := by decide +kernel
  have after : linesAfter.mapM readLine = some itemsAfter := by decide +kernel
  have common : readLine (entryLine "CN" p) = some (.entry "CN" p) := by
    have solid : "CN".toList.all (fun c => !blank c) = true := by decide
    have runes : ∀ c ∈ "CN".toList, blank c = false := fun c there => by
      simpa using List.all_eq_true.mp solid c there
    have key : Key "CN".toList :=
      { nonempty := by decide, runes := runes, sign := by decide, bracket := by decide }
    rw [entryLine, readLine_entry key (bare_domain valid), String.ofList_toList,
      String.ofList_toList]
  have names : (domains.zipIdx.map nameLine).mapM readLine =
      some (domains.zipIdx.map fun x => Item.entry (altName x.2) x.1) := by
    apply mapM_map
    intro x hx
    have known : x.1 ∈ domains := List.fst_mem_of_mem_zipIdx hx
    exact readLine_nameLine (valid_domains x.1 known)
  have items : (configLines p domains).mapM readLine =
      some (itemsBefore ++ [.entry "CN" p] ++ itemsAfter ++
        domains.zipIdx.map fun x => Item.entry (altName x.2) x.1) := by
    rw [configLines, List.mapM_append, List.mapM_append, List.mapM_append, before, after, names,
      List.mapM_cons, List.mapM_nil, common]
    rfl
  have fixed : (itemsBefore ++ [Item.entry "CN" p] ++ itemsAfter).foldlM addItem [] =
      some ((requested p []).dropLast ++ [⟨"alt_names", []⟩]) := rfl
  have added := foldlM_entries (domains.zipIdx.map fun x => (altName x.2, x.1))
    (requested p []).dropLast ⟨"alt_names", []⟩
  rw [List.map_map] at added
  rw [readConfig, toList_buildConfig, records_ended (whole_configLines valid valid_domains), items]
  change List.foldlM addItem [] _ = _
  rw [List.foldlM_append, fixed]
  exact added

/-- What `buildConfig` writes for normalized names carries exactly them. -/
theorem config_carries {primary p : String} {sans domains : List String}
    (h : normalizeDomains primary sans = .ok (p, domains)) :
    Carries (buildConfig p domains) p domains := by
  have normalized := normalizeDomains_iff.mp h
  have valid_domains : ∀ d ∈ domains, Domain d := fun d hd =>
    (validateDomain_iff.mp (normalized.valid_domains d hd)).1
  have first : p ∈ domains := (normalized.mem p).mpr (Or.inl normalized.is_primary)
  refine ⟨readConfig_buildConfig (valid_domains p first) valid_domains, ?_, ?_⟩
  · intro s hs
    simp only [requested, List.mem_cons, List.not_mem_nil, or_false] at hs
    rcases hs with rfl | rfl | rfl | rfl
    · decide
    · exact List.nodup_singleton _
    · decide
    · have keys : (domains.zipIdx.map fun x => (altName x.2, x.1)).map Prod.fst =
          (domains.zipIdx.map Prod.snd).map altName := by
        rw [List.map_map, List.map_map]
        rfl
      have numbers : (domains.zipIdx.map Prod.snd).Nodup := by
        rw [List.zipIdx_map_snd]
        exact List.nodup_range'
      change (List.map Prod.fst (List.map _ _)).Nodup
      rw [keys]
      exact numbers.map fun m n => altName_inj
  · intro d hd c hc
    have known : d ∈ domains := by
      rcases List.mem_cons.mp hd with rfl | hd
      · exact first
      · exact hd
    exact (domainRune_plain ((valid_domains d known).runes c hc)).2.1

theorem sample_config_carries :
    Carries (buildConfig "example.com" ["example.com", "*.example.com", "www.example.com"])
      "example.com" ["example.com", "*.example.com", "www.example.com"] := by
  have normalized : normalizeDomains "Example.com " ["www.example.com", "*.Example.com"] =
      .ok ("example.com", ["example.com", "*.example.com", "www.example.com"]) := by
    decide +kernel
  exact config_carries normalized

end SelfSignedConfig
