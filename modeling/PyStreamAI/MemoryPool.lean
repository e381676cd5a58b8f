import PyStreamAI.Machine
import PyStreamAI.Py.Basic
import PyStreamAI.Py.Dict

/-!
# The memory pool

Buffers of zero bytes under their ids, and a counter of the whole MiB they take. `usize` has 64
bits, and sums, products and differences of `u32` wrap, as in a release build. `vec!` panics beyond
`isize::MAX` bytes.
-/

open Py

namespace PyStreamAI

/-- `vec![0u8; len]`. Nothing writes to a buffer. -/
structure Buffer where
  len : UInt64
  deriving DecidableEq

/-- The bytes of a buffer. -/
def Buffer.bytes (b : Buffer) : List UInt8 := List.replicate b.len.toNat 0

/-- Memory pool for zero-copy buffer management. -/
structure MemoryPool where
  buffers : Dict String Buffer
  bufferSize : UInt64
  gpuMemoryMb : UInt32
  cpuMemoryMb : UInt32
  usedMemoryMb : UInt32
  deriving DecidableEq

/-- The result of `get_memory_stats`. -/
structure MemoryStats where
  usedMb : UInt32
  gpuMemoryMb : UInt32
  cpuMemoryMb : UInt32
  utilizationPercent : UInt32
  deriving DecidableEq

namespace MemoryPool

/-- `MemoryPool::new`. -/
def init (maxBufferSizeMb gpuMemoryMb : UInt32) : MemoryPool where
  buffers := ∅
  bufferSize := maxBufferSizeMb.toUInt64 * 1024 * 1024
  gpuMemoryMb
  cpuMemoryMb := maxBufferSizeMb
  usedMemoryMb := 0

def allocate (s : MemoryPool) (bufferId : String) (sizeBytes : UInt64) : Res MemoryPool Bool :=
  if s.usedMemoryMb * 1024 * 1024 + sizeBytes.toUInt32 > s.bufferSize.toUInt32 then
    (.ok false, s) -- Out of memory
  else if 2 ^ 63 ≤ sizeBytes.toNat then (.error ⟨"PanicException", "capacity overflow"⟩, s)
  else
    (.ok true, { s with
      buffers := s.buffers.set bufferId ⟨sizeBytes⟩
      usedMemoryMb := s.usedMemoryMb + (sizeBytes / (1024 * 1024)).toUInt32 })

def deallocate (s : MemoryPool) (bufferId : String) : MemoryPool :=
  match s.buffers.get? bufferId with
  | some buffer =>
    { s with
      buffers := s.buffers.erase bufferId
      usedMemoryMb := s.usedMemoryMb - (buffer.len / (1024 * 1024)).toUInt32 }
  | none => s

def getBuffer (s : MemoryPool) (bufferId : String) : Option (List UInt8) :=
  (s.buffers.get? bufferId).map Buffer.bytes

def getMemoryStats (s : MemoryPool) : Except Error MemoryStats :=
  if s.cpuMemoryMb = 0 then .error ⟨"PanicException", "attempt to divide by zero"⟩
  else .ok
      { usedMb := s.usedMemoryMb
        gpuMemoryMb := s.gpuMemoryMb
        cpuMemoryMb := s.cpuMemoryMb
        utilizationPercent := min (s.usedMemoryMb * 100 / s.cpuMemoryMb) 100 }

def clear (s : MemoryPool) : MemoryPool := { s with buffers := ∅, usedMemoryMb := 0 }

/-! ## Histories of calls -/

/-- A call on the pool. -/
inductive Op
  | allocate (bufferId : String) (sizeBytes : UInt64)
  | deallocate (bufferId : String)
  | getBuffer (bufferId : String)
  | getMemoryStats
  | clear
  deriving DecidableEq

/-- The pool after a call, whether or not the call panicked. -/
def step (s : MemoryPool) : Op → MemoryPool
  | .allocate bufferId sizeBytes => (s.allocate bufferId sizeBytes).2
  | .deallocate bufferId => s.deallocate bufferId
  | .getBuffer _ => s
  | .getMemoryStats => s
  | .clear => s.clear

/-! ## The check, in natural numbers -/

/-- The byte limit of the check. -/
def limit (s : MemoryPool) : ℕ := s.bufferSize.toUInt32.toNat

/-- The allocation is made. -/
def Accepts (s : MemoryPool) (sizeBytes : UInt64) : Prop :=
  (s.usedMemoryMb.toNat * 2 ^ 20 + sizeBytes.toNat) % 2 ^ 32 ≤ s.limit ∧ sizeBytes.toNat < 2 ^ 63

instance (s : MemoryPool) (sizeBytes : UInt64) : Decidable (s.Accepts sizeBytes) :=
  inferInstanceAs (Decidable (_ ∧ _))

theorem check_iff (s : MemoryPool) (sizeBytes : UInt64) :
    s.usedMemoryMb * 1024 * 1024 + sizeBytes.toUInt32 > s.bufferSize.toUInt32 ↔
      s.limit < (s.usedMemoryMb.toNat * 2 ^ 20 + sizeBytes.toNat) % 2 ^ 32 := by
  have hsum : (s.usedMemoryMb * 1024 * 1024 + sizeBytes.toUInt32).toNat =
      (s.usedMemoryMb.toNat * 2 ^ 20 + sizeBytes.toNat) % 2 ^ 32 := by
    rw [UInt32.toNat_add, UInt32.toNat_mul, UInt32.toNat_mul, UInt64.toNat_toUInt32]
    show ((s.usedMemoryMb.toNat * 1024 % 2 ^ 32 * 1024 % 2 ^ 32) + sizeBytes.toNat % 2 ^ 32) %
      2 ^ 32 = _
    omega
  rw [gt_iff_lt, UInt32.lt_iff_toNat_lt, hsum]
  rfl

/-- The whole MiB of a size, as the counter adds them. -/
theorem toNat_div_toUInt32 (size : UInt64) :
    (size / (1024 * 1024)).toUInt32.toNat = size.toNat / 2 ^ 20 % 2 ^ 32 := by
  rw [UInt64.toNat_toUInt32, UInt64.toNat_div]
  rfl

section Calls

variable {s : MemoryPool} (id : String) {size : UInt64}

theorem allocate_of_accepts (h : s.Accepts size) :
    s.allocate id size = (.ok true, { s with
      buffers := s.buffers.set id ⟨size⟩
      usedMemoryMb := s.usedMemoryMb + (size / (1024 * 1024)).toUInt32 }) := by
  unfold allocate
  rw [if_neg ((check_iff s size).not.mpr (not_lt.mpr h.1)), if_neg (not_le.mpr h.2)]

theorem allocate_of_not (h : ¬ s.Accepts size) :
    (s.allocate id size).1 ≠ .ok true ∧ (s.allocate id size).2 = s := by
  unfold allocate
  split_ifs with hcheck hlarge
  · exact ⟨by simp, rfl⟩
  · exact ⟨by simp, rfl⟩
  · exact absurd ⟨not_lt.mp ((check_iff s size).not.mp hcheck), not_le.mp hlarge⟩ h

theorem allocate_eq_true_iff : (s.allocate id size).1 = .ok true ↔ s.Accepts size := by
  constructor
  · intro h
    by_contra hnot
    exact (allocate_of_not id hnot).1 h
  · intro h
    rw [allocate_of_accepts id h]

theorem deallocate_of_some {b : Buffer} (h : s.buffers.get? id = some b) :
    s.deallocate id =
      { s with
        buffers := s.buffers.erase id
        usedMemoryMb := s.usedMemoryMb - (b.len / (1024 * 1024)).toUInt32 } := by
  unfold deallocate; rw [h]

theorem deallocate_of_none (h : s.buffers.get? id = none) : s.deallocate id = s := by
  unfold deallocate; rw [h]

theorem limit_step (s : MemoryPool) (op : Op) : (s.step op).limit = s.limit := by
  cases op with
  | allocate id size =>
    by_cases h : s.Accepts size
    · show (s.allocate id size).2.limit = _
      rw [allocate_of_accepts id h]
      rfl
    · show (s.allocate id size).2.limit = _
      rw [(allocate_of_not id h).2]
  | deallocate id =>
    show (s.deallocate id).limit = _
    cases hb : s.buffers.get? id with
    | some b =>
      rw [deallocate_of_some id hb]
      rfl
    | none => rw [deallocate_of_none id hb]
  | getBuffer id => rfl
  | getMemoryStats => rfl
  | clear => rfl

end Calls

theorem limit_init (maxBufferSizeMb gpuMemoryMb : UInt32) :
    (init maxBufferSizeMb gpuMemoryMb).limit = maxBufferSizeMb.toNat * 2 ^ 20 % 2 ^ 32 := by
  unfold limit init
  rw [UInt64.toNat_toUInt32, UInt64.toNat_mul, UInt64.toNat_mul, UInt32.toNat_toUInt64]
  show maxBufferSizeMb.toNat * 1024 % 2 ^ 64 * 1024 % 2 ^ 64 % 2 ^ 32 = _
  have hlt := maxBufferSizeMb.toNat_lt
  omega

/-! ## What the buffers hold -/

/-- The bytes of the live buffers. -/
def liveBytes (s : MemoryPool) : ℕ := s.buffers.sum fun b => b.bytes.length

/-- The whole MiB of the live buffers, each rounded down. -/
def liveMb (s : MemoryPool) : ℕ := s.buffers.sum fun b => b.bytes.length / 2 ^ 20

/-- The bytes of the live buffers beyond whole MiB. -/
def remainders (s : MemoryPool) : ℕ := s.buffers.sum fun b => b.bytes.length % 2 ^ 20

@[simp] theorem length_bytes (b : Buffer) : b.bytes.length = b.len.toNat := List.length_replicate

theorem liveBytes_eq (s : MemoryPool) : s.liveBytes = 2 ^ 20 * s.liveMb + s.remainders := by
  unfold liveBytes liveMb remainders Dict.sum
  rw [← List.sum_map_mul_left, ← List.sum_map_add]
  exact congrArg List.sum (List.map_congr_left fun e _ => (Nat.div_add_mod _ _).symm)

end MemoryPool

end PyStreamAI
