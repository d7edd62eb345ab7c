import CertMate.CertificateModel

/-!
# Domain names and directory names

`internal/certificate/validation.go` and `ValidateSafeDirectory` of
`internal/certificate/files/publisher.go`.
-/
namespace DomainValidation
open CertificateModel

/-- `unicode.ToLower` as far as it decides what is accepted: two runes outside ASCII have
an ASCII lower case, and all others stay outside ASCII. An error that quotes a lowered name
with such a capital has another text in the code. -/
def lowerRune (c : Char) : Char :=
  if c.val = 0x212A then 'k' else if c.val = 0x130 then 'i' else c.toLower

def toLower (s : String) : String := String.ofList (s.toList.map lowerRune)

/-- `unicode.IsSpace`. -/
def isSpace (c : Char) : Bool :=
  c.val ∈ ([0x09, 0x0A, 0x0B, 0x0C, 0x0D, 0x20, 0x85, 0xA0, 0x1680, 0x2028, 0x2029,
    0x202F, 0x205F, 0x3000] : List UInt32) || (0x2000 ≤ c.val && c.val ≤ 0x200A)

def trimSpace (s : String) : String :=
  String.ofList (((s.toList.dropWhile isSpace).reverse.dropWhile isSpace).reverse)

def isWildcard (domain : String) : Bool := "*.".toList.isPrefixOf domain.toList

def trimWildcard (domain : String) : String :=
  if isWildcard domain then String.ofList (domain.toList.drop 2) else domain

def labelRune (c : Char) : Bool :=
  ('a' ≤ c && c ≤ 'z') || ('0' ≤ c && c ≤ '9') || c == '-'

def validateLabel (label : List Char) : Except Error Unit :=
  if label.length = 0 ∨ 63 < (String.ofList label).utf8ByteSize ∨ label.head? = some '-' ∨
      label.getLast? = some '-' then
    .error (.new "域名标签长度或连字符位置无效")
  else if label.all labelRune then .ok ()
  else .error (.new "域名只能包含 ASCII 字母、数字、连字符和点")

def validateLabels : List (List Char) → Except Error Unit
  | [] => .ok ()
  | label :: rest =>
    match validateLabel label with
    | .error err => .error err
    | .ok () => validateLabels rest

/-- The part of `ValidateDomain` after the wildcard prefix is gone. -/
def validateName (domain : String) : Except Error Unit :=
  if domain.toList.contains '*' then .error (.new "通配符只能出现在最左侧标签")
  else if (domain.toList.splitOn '.').length < 2 then .error (.new "域名至少需要两个标签")
  else validateLabels (domain.toList.splitOn '.')

def validateDomain (domain : String) (allowWildcard : Bool) : Except Error Unit :=
  if domain = "" ∨ 253 < domain.utf8ByteSize then .error (.new "域名长度无效")
  else if domain ≠ toLower domain ∨ trimSpace domain ≠ domain ∨
      domain.toList.getLast? = some '.' then
    .error (.new "域名必须是无尾点的小写 ASCII 名称")
  else if isWildcard domain then
    if !allowWildcard then .error (.new "主域名不能使用通配符")
    else if (trimWildcard domain).toList.count '.' < 1 then
      .error (.new "通配符域名至少需要两级基础域名")
    else validateName (trimWildcard domain)
  else validateName domain

/-- The loop of `NormalizeDomains` over the SANs; `domains` are those seen. -/
def collectSANs : List String → List String → Except Error (List String)
  | [], domains => .ok domains
  | value :: rest, domains =>
    let domain := toLower (trimSpace value)
    if domain = "" then collectSANs rest domains
    else
      match validateDomain domain true with
      | .error err => .error (.wrap ("SAN " ++ Error.quote value) err)
      | .ok () =>
        if domain ∈ domains then collectSANs rest domains
        else collectSANs rest (domains ++ [domain])

def sortStrings (values : List String) : List String := values.insertionSort (· ≤ ·)

def normalizeDomains (primary : String) (sans : List String) :
    Except Error (String × List String) :=
  let primary := toLower (trimSpace primary)
  match validateDomain primary false with
  | .error err => .error (.wrap "主域名" err)
  | .ok () =>
    match collectSANs sans [primary] with
    | .error err => .error err
    | .ok domains => .ok (primary, domains.take 1 ++ sortStrings (domains.drop 1))

def wildcardCoversDomain (wildcard domain : String) : Bool :=
  let suffix := '.' :: (trimWildcard wildcard).toList
  if suffix.isSuffixOf domain.toList then
    let leftmostLabel := domain.toList.take (domain.toList.length - suffix.length)
    !leftmostLabel.isEmpty && !leftmostLabel.contains '.'
  else false

/-- The first plain domain some wildcard covers, with the first such wildcard. -/
def findRedundant (wildcards : List String) : List String → Option (String × String)
  | [] => none
  | domain :: rest =>
    if isWildcard domain then findRedundant wildcards rest
    else
      match wildcards.find? fun wildcard => wildcardCoversDomain wildcard domain with
      | some wildcard => some (domain, wildcard)
      | none => findRedundant wildcards rest

def validateACMEDomains (primary : String) (domains : List String) : Except Error Unit :=
  match findRedundant (sortStrings (domains.filter isWildcard)) domains with
  | some (domain, wildcard) => .error (.redundantDomain domain wildcard (domain = primary))
  | none => .ok ()

/-- On the ASCII names it is used on, bytes and characters are the same. -/
def safeDirectoryFromDomain (domain : String) : String :=
  let value := (trimWildcard (toLower domain)).toList.map fun c => if c = '.' then '-' else c
  let value := ((value.dropWhile (· == '-')).reverse.dropWhile (· == '-')).reverse
  if 63 < value.length then
    String.ofList (((value.take 63).reverse.dropWhile (· == '-')).reverse)
  else String.ofList value

def directoryRune (c : Char) : Bool :=
  ('a' ≤ c && c ≤ 'z') || ('0' ≤ c && c ≤ '9')

/-- `^[a-z0-9][a-z0-9-]{0,62}$`, and no `..`, which the pattern excludes. -/
def safeDirectory (name : String) : Bool :=
  match name.toList with
  | [] => false
  | first :: rest =>
    directoryRune first && decide (rest.length ≤ 62) &&
      rest.all fun c => directoryRune c || c == '-'

def validateSafeDirectory (name : String) : Except Error Unit :=
  if safeDirectory name then .ok ()
  else .error (.new "输出目录名只能包含小写字母、数字和连字符，长度为 1 到 63")

/-- The names the publisher gives its own directories are not certificate
directories. -/
theorem safeDirectory_not_hidden (name : String) : safeDirectory ("." ++ name) = false := by
  have h : ("." ++ name).toList = '.' :: name.toList := by
    rw [String.toList_append]
    rfl
  have dot : directoryRune '.' = false := by decide
  simp only [safeDirectory, h, dot, Bool.false_and]

example : normalizeDomains " Example.com " ["www.example.com", "*.example.com", "", "WWW.example.com"] =
    .ok ("example.com", ["example.com", "*.example.com", "www.example.com"]) := by
  decide +kernel

example : validateACMEDomains "example.com" ["example.com", "*.example.com", "www.example.com"] =
    .error (.redundantDomain "www.example.com" "*.example.com" false) := by
  decide +kernel

end DomainValidation
