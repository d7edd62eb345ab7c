import CertMate.CertificateModel
import CertMate.Readers

/-!
# The setup helper

`cmd/setup-helper/main.go`, which turns the password on its standard input into a bcrypt
hash. It reads a few bytes more than a password may have, so that a password that is too
long does not pass for its beginning, and what is printed is a hash of the whole password
(`hash_of_whole`).
-/
namespace SetupHelper
open CertificateModel Readers

def passwordBcryptCost : Nat := 12

def randomSecretBytes : Nat := 32

def maxPasswordBytes : Nat := 72

/-- `strings.TrimSuffix`. -/
def trimSuffix (value suffix : Bytes) : Bytes :=
  if suffix <:+ value then value.take (value.length - suffix.length) else value

/-- What the helper makes of the bytes it has read. -/
def passwordOf (value : Bytes) : Except Error Bytes :=
  let value := trimSuffix (trimSuffix value (utf8 "\n")) (utf8 "\r")
  if value.length = 0 then .error (.new "管理员密码不能为空")
  else if maxPasswordBytes < value.length then
    .error (.new ("管理员密码不能超过 " ++ toString maxPasswordBytes ++ " 字节"))
  else .ok value

section Input
variable {σ : Type} (R : Reader σ UInt8 Error) (room : Nat → Nat) (fuel : Nat)

/-- With the reader as it is left; nothing when the fuel is not enough. -/
def readPassword (input : σ) : Option (Except Error Bytes × σ) :=
  (readAll (limitReader R) room fuel [] (input, maxPasswordBytes + 3)).map fun r =>
    (match r.1.2 with
      | some err => .error (.wrap "读取管理员密码失败" err)
      | none => passwordOf r.1.1,
    r.2.1)

/-- `bcrypt.GenerateFromPassword`, and `rand.Read` with the encoding of what it has read. -/
structure Tools where
  generateFromPassword : Bytes → Nat → Except Error String
  randomHex : Nat → Except Error String

/-- The line that is printed. Whether it can be written does not depend on it. -/
def run (tools : Tools) (arguments : List String) (input : σ) : Option (Except Error String) :=
  match arguments with
  | ["hash-password"] =>
    (readPassword R room fuel input).map fun r => do
      let password ← r.1
      match tools.generateFromPassword password passwordBcryptCost with
      | .error err => .error (.wrap "生成 bcrypt 哈希失败" err)
      | .ok hash => .ok hash
  | ["random-secret"] =>
    match tools.randomHex randomSecretBytes with
    | .error err => some (.error (.wrap "生成随机 Secret 失败" err))
    | .ok secret => some (.ok secret)
  | [operation] => some (.error (.new ("未知操作 " ++ Error.quote operation)))
  | _ => some (.error (.new "必须指定 hash-password 或 random-secret"))

end Input

/-- The input without a line feed at its end, and then without a carriage return. -/
def stripped (input : Bytes) : Bytes := trimSuffix (trimSuffix input (utf8 "\n")) (utf8 "\r")

/-- A password that bcrypt takes in full. -/
def Admissible (password : Bytes) : Prop := 1 ≤ password.length ∧ password.length ≤ 72

theorem trimSuffix_length (value suffix : Bytes) :
    value.length ≤ (trimSuffix value suffix).length + suffix.length := by
  unfold trimSuffix
  split
  · rw [List.length_take]
    omega
  · exact Nat.le_add_right _ _

theorem stripped_length (input : Bytes) : input.length ≤ (stripped input).length + 2 := by
  have first := trimSuffix_length input (utf8 "\n")
  have second := trimSuffix_length (trimSuffix input (utf8 "\n")) (utf8 "\r")
  have one : (utf8 "\n").length = 1 ∧ (utf8 "\r").length = 1 := by decide
  unfold stripped
  omega

theorem passwordOf_ok {value : Bytes} (fits : Admissible (stripped value)) :
    passwordOf value = .ok (stripped value) := by
  obtain ⟨some, short⟩ := fits
  change (if (stripped value).length = 0 then _ else if maxPasswordBytes < (stripped value).length
    then _ else _) = _
  have short : ¬ maxPasswordBytes < (stripped value).length := Nat.not_lt.mpr short
  rw [if_neg (Nat.ne_of_gt some), if_neg short]
  rfl

theorem passwordOf_error {value : Bytes} (unfit : ¬ Admissible (stripped value)) :
    ∃ err, passwordOf value = .error err := by
  change ∃ err, (if (stripped value).length = 0 then _ else
    if maxPasswordBytes < (stripped value).length then _ else _) = _
  split
  · exact ⟨_, rfl⟩
  · rename_i some
    rw [if_pos]
    · exact ⟨_, rfl⟩
    · by_contra short
      exact unfit ⟨Nat.pos_of_ne_zero some, Nat.not_lt.mp short⟩

/-- What is read up to the limit is taken or refused like the whole input: either it is the
whole input, or both are too long. -/
theorem passwordOf_limited (input : Bytes) :
    (Admissible (stripped input) ∧
        passwordOf (input.take (maxPasswordBytes + 3)) = .ok (stripped input)) ∨
      ¬ Admissible (stripped input) ∧
        ∃ err, passwordOf (input.take (maxPasswordBytes + 3)) = .error err := by
  by_cases whole : input.length ≤ maxPasswordBytes + 3
  · rw [List.take_of_length_le whole]
    by_cases fits : Admissible (stripped input)
    · exact Or.inl ⟨fits, passwordOf_ok fits⟩
    · exact Or.inr ⟨fits, passwordOf_error fits⟩
  · have cut : (input.take (maxPasswordBytes + 3)).length = maxPasswordBytes + 3 := by
      rw [List.length_take]
      omega
    have long := stripped_length input
    have tooLong := stripped_length (input.take (maxPasswordBytes + 3))
    rw [cut] at tooLong
    unfold maxPasswordBytes at *
    refine Or.inr ⟨fun fits => ?_, passwordOf_error fun fits => ?_⟩
    · obtain ⟨-, short⟩ := fits
      omega
    · obtain ⟨-, short⟩ := fits
      omega

theorem readPassword_eq (input : Bytes) (d : Delivery) (room : Nat → Nat) {fuel : Nat}
    (enough : 75 < fuel) :
    ∃ rest, readPassword (d.reader .eof) room fuel ⟨input, 0⟩ =
        some (passwordOf (input.take (maxPasswordBytes + 3)), rest) ∧
      rest.left = input.drop 75 := by
  have enough : maxPasswordBytes + 3 < fuel := enough
  obtain ⟨s', done, left⟩ := readAll_limit (ε := Error) d room [] ⟨input, 0⟩ enough
  refine ⟨s'.1, ?_, left⟩
  rw [readPassword, done]
  rfl

/-- From any input, however it is handed out: the answer is the stripped input when that
has 1 to 72 bytes and an error otherwise, and at most 75 bytes have been read. -/
theorem readPassword_whole (input : Bytes) (d : Delivery) (room : Nat → Nat) (fuel : Nat)
    (enough : 75 < fuel) :
    ∃ answer rest, readPassword (d.reader .eof) room fuel ⟨input, 0⟩ = some (answer, rest) ∧
      (Admissible (stripped input) → answer = .ok (stripped input)) ∧
      (¬ Admissible (stripped input) → ∃ err, answer = .error err) ∧
      ∃ read, read.length ≤ 75 ∧ input = read ++ rest.left := by
  obtain ⟨rest, done, left⟩ := readPassword_eq input d room enough
  refine ⟨_, rest, done, ?_, ?_, input.take 75, List.length_take_le _ _, ?_⟩
  · intro fits
    rcases passwordOf_limited input with ⟨-, answer⟩ | ⟨unfit, -⟩
    · exact answer
    · exact absurd fits unfit
  · intro unfit
    rcases passwordOf_limited input with ⟨fits, -⟩ | ⟨-, answer⟩
    · exact absurd fits unfit
    · exact answer
  · rw [left, List.take_append_drop]

/-- 72 bytes with the line end of Windows, handed out two at a time. -/
theorem readPassword_whole_longest :
    ∃ answer rest, readPassword (Delivery.reader ⟨fun _ => 1, fun _ => false⟩ .eof) (fun _ => 511)
        76 ⟨List.replicate 72 97 ++ [13, 10], 0⟩ = some (answer, rest) ∧
      answer = .ok (List.replicate 72 97) := by
  have whole : stripped (List.replicate 72 97 ++ [13, 10]) = List.replicate 72 97 := by decide
  obtain ⟨answer, rest, done, taken, -⟩ := readPassword_whole
    (List.replicate 72 97 ++ [13, 10]) ⟨fun _ => 1, fun _ => false⟩ (fun _ => 511) 76 (by decide)
  rw [whole] at taken
  exact ⟨answer, rest, done, taken (by unfold Admissible; decide)⟩

/-- The hash that is printed is one of the whole stripped input. -/
theorem hash_of_whole (tools : Tools) (input : Bytes) (d : Delivery) (room : Nat → Nat)
    {fuel : Nat} (enough : 75 < fuel) {hash : String}
    (printed : run (d.reader .eof) room fuel tools ["hash-password"] ⟨input, 0⟩ =
      some (.ok hash)) :
    Admissible (stripped input) ∧
      tools.generateFromPassword (stripped input) passwordBcryptCost = .ok hash := by
  obtain ⟨rest, done, -⟩ := readPassword_eq input d room enough
  rw [run, done, Option.map_some, Option.some.injEq] at printed
  rcases passwordOf_limited input with ⟨fits, answer⟩ | ⟨-, err, answer⟩
  · refine ⟨fits, ?_⟩
    rw [answer] at printed
    change (match tools.generateFromPassword (stripped input) passwordBcryptCost with
      | .error err => _
      | .ok hash => _) = _ at printed
    split at printed
    · cases printed
    · rename_i made
      cases printed
      exact made
  · rw [answer] at printed
    cases printed

end SetupHelper
