import Mathlib

/-!
# Writers that keep a beginning

A writer answers a count and perhaps an error to each write. What is known of every single
write holds along a sequence of writes, whatever was answered on the way.
-/
namespace PrefixWriters

structure Writer (σ β ε : Type) where
  write : List β → σ → (Int × Option ε) × σ
  contents : σ → List β

/-- A write, with what the writer held before it and after it. -/
structure Record (β ε : Type) where
  value : List β
  before : List β
  after : List β
  count : Int
  err : Option ε

/-- A write that is not kept in full reports an error, and with it how much is kept. -/
def Record.Reported {β ε : Type} (r : Record β ε) : Prop :=
  r.after ≠ r.before ++ r.value →
    r.err ≠ none ∧ r.count = r.after.length - r.before.length ∧
      r.after = r.before ++ r.value.take r.count.toNat

section
variable {σ β ε : Type} (W : Writer σ β ε)

def Writer.record (value : List β) (s : σ) : Record β ε :=
  let r := W.write value s
  ⟨value, W.contents s, W.contents r.2, r.1.1, r.1.2⟩

/-- One write after the other, whatever they answer. -/
def Writer.writeAll : List (List β) → σ → List (Record β ε) × σ
  | [], s => ([], s)
  | value :: rest, s =>
    let r := Writer.writeAll rest (W.write value s).2
    (W.record value s :: r.1, r.2)

/-- From the states of `I` on the writer keeps the first `limit` elements. -/
structure Keeps (I : σ → Prop) (limit : Nat) : Prop where
  fits : ∀ s, I s → (W.contents s).length ≤ limit
  stays : ∀ s value, I s → I (W.write value s).2
  write : ∀ s value, I s → W.contents (W.write value s).2 = (W.contents s ++ value).take limit

end

theorem take_take_append {β : Type} (n : Nat) (a b : List β) :
    (a.take n ++ b).take n = (a ++ b).take n := by
  rw [List.take_append, List.take_append, List.take_take, Nat.min_self, List.length_take]
  by_cases long : n ≤ a.length
  · rw [Nat.min_eq_left long, Nat.sub_self, Nat.sub_eq_zero_of_le long]
  · rw [Nat.min_eq_right (Nat.le_of_not_le long)]

section
variable {σ β ε : Type} {W : Writer σ β ε} {I : σ → Prop} {limit : Nat}

/-- Along a sequence of writes, too, the first elements are kept and no others. -/
theorem Keeps.writeAll (keeps : Keeps W I limit) (values : List (List β)) {s : σ} (start : I s) :
    W.contents (W.writeAll values s).2 = (W.contents s ++ values.flatten).take limit := by
  induction values generalizing s with
  | nil =>
    rw [List.flatten_nil, List.append_nil, List.take_of_length_le (keeps.fits s start)]
    rfl
  | cons value rest ih =>
    have next := ih (keeps.stays s value start)
    rw [keeps.write s value start, take_take_append, List.append_assoc] at next
    exact next

/-- What holds of a single write holds of each write of a sequence. -/
theorem Keeps.forall_record (keeps : Keeps W I limit) {P : Record β ε → Prop}
    (each : ∀ s value, I s → P (W.record value s)) (values : List (List β)) {s : σ} (start : I s) :
    ∀ r ∈ (W.writeAll values s).1, P r := by
  induction values generalizing s with
  | nil => exact fun _ there => nomatch there
  | cons value rest ih =>
    intro r there
    rcases List.mem_cons.mp there with rfl | there
    · exact each s value start
    · exact ih (keeps.stays s value start) r there

/-- A write that takes what there is room for, answers how much that is, and reports an
error unless it was all. -/
theorem Writer.record_reported {value : List β} {s : σ} {room : Nat}
    (kept : W.contents (W.write value s).2 = W.contents s ++ value.take room)
    (short : room < value.length → (W.write value s).1.2 ≠ none ∧ (W.write value s).1.1 = room) :
    (W.record value s).Reported := by
  intro cut
  have less : room < value.length := by
    by_contra long
    refine cut (kept.trans ?_)
    rw [List.take_of_length_le (Nat.le_of_not_lt long)]
    rfl
  obtain ⟨failed, count⟩ := short less
  refine ⟨failed, ?_, ?_⟩
  · change (W.write value s).1.1 = ((W.contents (W.write value s).2).length : Int) -
      ((W.contents s).length : Int)
    rw [kept, count, List.length_append, List.length_take, Nat.min_eq_left (Nat.le_of_lt less)]
    omega
  · change W.contents (W.write value s).2 = W.contents s ++ value.take (W.write value s).1.1.toNat
    rw [kept, count, Int.toNat_natCast]

end

end PrefixWriters
