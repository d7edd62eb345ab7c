import CertMate.OutputRedaction
import CertMate.PrefixWriters

/-!
# The output buffers

`boundedBuffer` of `internal/certificate/acmesh/engine.go`, and the buffers of the name
`limitedBuffer` in `internal/certificate/selfsigned/engine.go` and
`internal/systeminfo/service.go`. All three keep the beginning of what is written. The
first two refuse what goes over the limit, the third passes over it.
-/
namespace BoundedBuffers
open CertificateModel PrefixWriters
open OutputRedaction (BoundedBuffer exceeded)

/-- `bytes.Buffer.Write`. -/
def bufferWrite (value buffer : Bytes) : (Int × Option Error) × Bytes :=
  ((value.length, none), buffer ++ value)

structure EngineBuffer where
  buffer : Bytes
  limit : Int
  deriving DecidableEq, Repr

/-- `Write`, which reports `full` when there is no room. -/
def EngineBuffer.write (full : Error) (value : Bytes) (b : EngineBuffer) :
    (Int × Option Error) × EngineBuffer :=
  let remaining := b.limit - b.buffer.length
  if remaining ≤ 0 then ((0, some full), b)
  else if remaining < value.length then
    let (_, buffer) := bufferWrite (value.take remaining.toNat) b.buffer
    ((remaining, some full), { b with buffer := buffer })
  else
    let (answer, buffer) := bufferWrite value b.buffer
    (answer, { b with buffer := buffer })

def engineBuffer (full : Error) : Writer EngineBuffer UInt8 Error :=
  ⟨EngineBuffer.write full, EngineBuffer.buffer⟩

/-- `boundedBuffer` of acme.sh. -/
def boundedBuffer : Writer EngineBuffer UInt8 Error := engineBuffer exceeded

/-- `limitedBuffer` of OpenSSL. -/
def limitedBuffer : Writer EngineBuffer UInt8 Error := engineBuffer (.new "命令输出超过限制")

/-- `&boundedBuffer{limit: limit}`, and `&limitedBuffer{limit: limit}`. -/
def EngineBuffer.new (limit : Int) : EngineBuffer := ⟨[], limit⟩

/-- A buffer with a natural number for its limit does the same. -/
theorem write_natural (b : BoundedBuffer) (value : Bytes) :
    EngineBuffer.write exceeded value ⟨b.buffer, b.limit⟩ =
      ((((b.write value).2.1 : Int), (b.write value).2.2),
        ⟨(b.write value).1.buffer, (b.write value).1.limit⟩) := by
  unfold EngineBuffer.write BoundedBuffer.write
  dsimp only [bufferWrite]
  by_cases full : b.limit - b.buffer.length = 0
  · rw [if_pos (by omega), if_pos full]
    rfl
  · rw [if_neg (by omega), if_neg full]
    have remaining :
        ((b.limit : Int) - b.buffer.length) = ((b.limit - b.buffer.length : Nat) : Int) := by
      omega
    rw [remaining, Int.toNat_natCast]
    by_cases short : b.limit - b.buffer.length < value.length
    · rw [if_pos (by omega), if_pos short]
    · rw [if_neg (by omega), if_neg short]

/-- The embedded `bytes.Buffer` brings methods of its own; `Write` is the one that the
buffer replaces. -/
structure VersionBuffer where
  buffer : Bytes
  remaining : Int
  deriving DecidableEq, Repr

def VersionBuffer.write (value : Bytes) (b : VersionBuffer) :
    (Int × Option Error) × VersionBuffer :=
  let original : Int := value.length
  if b.remaining ≤ 0 then ((original, none), b)
  else
    let value := if b.remaining < value.length then value.take b.remaining.toNat else value
    let ((written, err), buffer) := bufferWrite value b.buffer
    let b : VersionBuffer := ⟨buffer, b.remaining - written⟩
    match err.filter fun err => !err.isCanceled with
    | some err => ((written, some err), b)
    | none => ((original, none), b)

/-- `limitedBuffer` of the system information. -/
def versionBuffer : Writer VersionBuffer UInt8 Error :=
  ⟨VersionBuffer.write, VersionBuffer.buffer⟩

/-- `&limitedBuffer{remaining: limit}`. -/
def VersionBuffer.new (limit : Int) : VersionBuffer := ⟨[], limit⟩

/-- The bytes that an engine's buffer has room for. -/
def EngineBuffer.room (b : EngineBuffer) : Nat := (b.limit - b.buffer.length).toNat

theorem EngineBuffer.write_limit (full : Error) (value : Bytes) (b : EngineBuffer) :
    (b.write full value).2.limit = b.limit := by
  unfold EngineBuffer.write
  dsimp only [bufferWrite]
  split
  · rfl
  · split <;> rfl

theorem EngineBuffer.write_buffer (full : Error) (value : Bytes) (b : EngineBuffer) :
    (b.write full value).2.buffer = b.buffer ++ value.take b.room := by
  unfold EngineBuffer.write EngineBuffer.room
  dsimp only [bufferWrite]
  split
  · rename_i none
    rw [Int.toNat_of_nonpos none, List.take_zero, List.append_nil]
  · split
    · rfl
    · rename_i enough
      rw [List.take_of_length_le (by omega)]

/-- What is cut off is reported. -/
theorem EngineBuffer.write_short {full : Error} {value : Bytes} {b : EngineBuffer}
    (short : b.room < value.length) :
    (b.write full value).1 = ((b.room : Int), some full) := by
  unfold EngineBuffer.room at short
  unfold EngineBuffer.write EngineBuffer.room
  dsimp only [bufferWrite]
  split
  · rename_i none
    rw [Int.toNat_of_nonpos none]
    rfl
  · rename_i some
    rw [if_pos (by omega), Int.toNat_of_nonneg (by omega)]

/-- The bytes that are still passed on. -/
def VersionBuffer.room (b : VersionBuffer) : Nat := b.remaining.toNat

theorem VersionBuffer.write_answer (value : Bytes) (b : VersionBuffer) :
    (b.write value).1 = ((value.length : Int), none) := by
  unfold VersionBuffer.write
  dsimp only [bufferWrite]
  split <;> rfl

theorem VersionBuffer.write_buffer (value : Bytes) (b : VersionBuffer) :
    (b.write value).2.buffer = b.buffer ++ value.take b.room ∧
      (b.write value).2.room = b.room - value.length := by
  unfold VersionBuffer.write VersionBuffer.room
  dsimp only [bufferWrite, Option.filter]
  split
  · rename_i none
    rw [Int.toNat_of_nonpos none, List.take_zero, List.append_nil, Nat.zero_sub]
    exact ⟨rfl, rfl⟩
  · rename_i some
    dsimp only
    split
    · rename_i short
      refine ⟨rfl, ?_⟩
      rw [List.length_take]
      omega
    · rename_i enough
      rw [List.take_of_length_le (by omega)]
      exact ⟨rfl, by omega⟩

/-- The first `limit` bytes of all that was written, or everything if it was less. -/
structure KeepsPrefix (limit : Int) (all kept : Bytes) : Prop where
  beginning : kept = all.take (min limit.toNat all.length)
  bounded : kept.length ≤ limit.toNat

/-- The states that an engine's buffer of the limit can have. -/
def EngineBuffer.Within (limit : Int) (b : EngineBuffer) : Prop :=
  b.limit = limit ∧ b.buffer.length ≤ limit.toNat

/-- The states that a buffer of the system information can have. -/
def VersionBuffer.Within (limit : Int) (b : VersionBuffer) : Prop :=
  b.buffer.length + b.room = limit.toNat

section Sequences
variable {full : Error} {limit : Int}

theorem append_take_room {buffer value : Bytes} {room total : Nat}
    (fits : buffer.length + room = total) :
    buffer ++ value.take room = (buffer ++ value).take total := by
  subst fits
  rw [List.take_length_add_append]

theorem EngineBuffer.Within.room {b : EngineBuffer} (h : b.Within limit) :
    b.buffer.length + b.room = limit.toNat := by
  obtain ⟨rfl, fits⟩ := h
  unfold EngineBuffer.room
  omega

variable (full limit) in
theorem engine_keeps :
    Keeps (engineBuffer full) (EngineBuffer.Within limit) limit.toNat where
  fits _ within := within.2
  stays b value within := by
    refine ⟨(b.write_limit full value).trans within.1, ?_⟩
    change (b.write full value).2.buffer.length ≤ _
    rw [b.write_buffer full value, append_take_room within.room]
    exact List.length_take_le _ _
  write b value within := (b.write_buffer full value).trans (append_take_room within.room)

theorem engine_reported (b : EngineBuffer) (value : Bytes) :
    ((engineBuffer full).record value b).Reported := by
  refine Writer.record_reported (b.write_buffer full value) fun short => ?_
  change (b.write full value).1.2 ≠ none ∧ (b.write full value).1.1 = _
  rw [b.write_short short]
  exact ⟨Option.some_ne_none _, rfl⟩

variable (limit) in
theorem version_keeps : Keeps versionBuffer (VersionBuffer.Within limit) limit.toNat where
  fits _ within := within ▸ Nat.le_add_right _ _
  stays b value within := by
    obtain ⟨buffer, room⟩ := b.write_buffer value
    have total : b.buffer.length + b.room = limit.toNat := within
    change (b.write value).2.buffer.length + (b.write value).2.room = _
    rw [buffer, room, List.length_append, List.length_take]
    omega
  write b value within := (b.write_buffer value).1.trans (append_take_room within)

theorem version_silent (b : VersionBuffer) (value : Bytes) :
    (versionBuffer.record value b).err = none :=
  congrArg Prod.snd (b.write_answer value)

/-- A buffer that begins empty. -/
theorem keepsPrefix_of_keeps {σ : Type} {W : Writer σ UInt8 Error} {I : σ → Prop}
    (keeps : Keeps W I limit.toNat) {s : σ} (start : I s) (empty : W.contents s = [])
    (writes : List Bytes) :
    KeepsPrefix limit writes.flatten (W.contents (W.writeAll writes s).2) := by
  rw [keeps.writeAll writes start, empty, List.nil_append]
  refine ⟨?_, List.length_take_le _ _⟩
  rw [← List.take_take, List.take_length]

end Sequences

/-- Whatever is written: each of the three buffers holds the first bytes up to its limit.
The buffers of the engines report every write that they do not keep in full, with how much
of it they keep; the buffer of the system information reports nothing. -/
theorem buffers_keep_prefix (limit : Int) (writes : List Bytes) :
    (KeepsPrefix limit writes.flatten (boundedBuffer.writeAll writes (.new limit)).2.buffer ∧
        ∀ r ∈ (boundedBuffer.writeAll writes (.new limit)).1, r.Reported) ∧
      (KeepsPrefix limit writes.flatten (limitedBuffer.writeAll writes (.new limit)).2.buffer ∧
        ∀ r ∈ (limitedBuffer.writeAll writes (.new limit)).1, r.Reported) ∧
      KeepsPrefix limit writes.flatten (versionBuffer.writeAll writes (.new limit)).2.buffer ∧
        ∀ r ∈ (versionBuffer.writeAll writes (.new limit)).1, r.err = none := by
  have engine : ∀ full,
      KeepsPrefix limit writes.flatten ((engineBuffer full).writeAll writes (.new limit)).2.buffer ∧
        ∀ r ∈ ((engineBuffer full).writeAll writes (.new limit)).1, r.Reported := by
    intro full
    have start : (EngineBuffer.new limit).Within limit := ⟨rfl, Nat.zero_le _⟩
    exact ⟨keepsPrefix_of_keeps (engine_keeps full limit) start rfl writes,
      (engine_keeps full limit).forall_record (fun b value _ => engine_reported b value) writes
        start⟩
  have start : (VersionBuffer.new limit).Within limit := Nat.zero_add _
  exact ⟨engine exceeded, engine _, keepsPrefix_of_keeps (version_keeps limit) start rfl writes,
    (version_keeps limit).forall_record (fun b value _ => version_silent b value) writes start⟩

/-- The write that goes over the limit, and the one after it. -/
example : (limitedBuffer.writeAll [utf8 "12345", utf8 "6"] (.new 4)).1.map (fun r => r.count) =
    [4, 0] := by decide

end BoundedBuffers
