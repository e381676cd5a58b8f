import Mathlib.Data.Int.CardIntervalMod
import PyStreamAI.Py.Basic
import PyStreamAI.Rust.U32

/-!
# Many GPUs

Turns go round `n` positions. In `k` turns from the first position each is visited `k / n` times, and
those before position `k % n` once more (`RoundRobin.count_turns`), so no two differ by more than 1.

`MultiGPUScheduler`, in Rust, and `MultiGPUInference`, in Python, hand out GPUs in turns. They agree
on the turns and fail alike without a GPU (`next_gpu_agree`). They agree on the memory of all GPUs
when the name of the type is written in capitals, up to the size where the Rust sum overflows
(`vram_agree`).
-/

/-! ## Taking turns -/

namespace RoundRobin

variable (n : ℕ)

/-- The positions of `k` turns, the first one at `c`. -/
def turns (c k : ℕ) : List ℕ := (List.range k).map fun t => (c + t) % n

@[simp] theorem turns_zero (c : ℕ) : turns n c 0 = [] := rfl

@[simp] theorem length_turns (c k : ℕ) : (turns n c k).length = k := by simp [turns]

theorem turns_snoc (c k : ℕ) : turns n c (k + 1) = turns n c k ++ [(c + k) % n] := by
  unfold turns
  rw [List.range_succ, List.map_append, List.map_singleton]

variable {n}

theorem count_turns_eq_count {i : ℕ} (hi : i < n) (k : ℕ) :
    (turns n 0 k).count i = k.count (· ≡ i [MOD n]) := by
  induction k with
  | zero => simp
  | succ k ih =>
    have hmod : (0 + k) % n = i ↔ k ≡ i [MOD n] := by
      unfold Nat.ModEq
      rw [Nat.zero_add, Nat.mod_eq_of_lt hi]
    rw [turns_snoc, List.count_append, ih, Nat.count_succ, List.count_singleton]
    simp only [beq_iff_eq, hmod]

/-- How often each position is visited. -/
theorem count_turns {i : ℕ} (hi : i < n) (k : ℕ) :
    (turns n 0 k).count i = k / n + if i < k % n then 1 else 0 := by
  rw [count_turns_eq_count hi, Nat.count_modEq_card k (Nat.zero_lt_of_lt hi), Nat.mod_eq_of_lt hi]

end RoundRobin

open Py Rust

namespace PyStreamAI

/-! ## The scheduler in Rust -/

inductive GPUType
  | a100
  | h100
  | l4
  | v100
  | t4
  | rtx4090
  | unknown
  deriving DecidableEq

namespace GPUType

/-- The type of a name in capitals. -/
def ofCapitals (s : String) : GPUType :=
  if s = "A100" then .a100
  else if s = "H100" then .h100
  else if s = "L4" then .l4
  else if s = "V100" then .v100
  else if s = "T4" then .t4
  else if s = "RTX4090" then .rtx4090
  else .unknown

/-- The name in any spelling. No letter beyond the ASCII ones has a capital in a known name. -/
def fromString (s : String) : GPUType := ofCapitals s.toUpper

def memoryGb : GPUType → UInt32
  | .h100 => 80
  | .a100 => 80
  | .l4 => 24
  | .v100 => 32
  | .t4 => 16
  | .rtx4090 => 24
  | .unknown => 0

end GPUType

structure GPUInfo where
  gpuType : GPUType
  deviceId : UInt32
  memoryMb : UInt32
  memoryFreeMb : UInt32
  deriving DecidableEq

/-- A GPU of which all memory is free. -/
def GPUInfo.new (gpuType : String) (deviceId : UInt32) : GPUInfo :=
  let gpuType := GPUType.fromString gpuType
  let memoryMb := gpuType.memoryGb * 1024
  ⟨gpuType, deviceId, memoryMb, memoryMb⟩

/-- `iter().max_by_key(f)`: the last of the largest. -/
def maxByKey {α : Type} (f : α → UInt32) : List α → Option α
  | [] => none
  | x :: xs => some (xs.foldl (fun best y => if f best ≤ f y then y else best) x)

structure MultiGPUScheduler where
  gpus : List GPUInfo
  currentGpu : ℕ

namespace MultiGPUScheduler

def new (gpuCount : ℕ) (gpuType : String) : MultiGPUScheduler where
  gpus := (List.range gpuCount).map fun i => .new gpuType (.ofNat i)
  currentGpu := 0

/-- The next GPU, or a panic. -/
def nextGpu (s : MultiGPUScheduler) : Option (GPUInfo × MultiGPUScheduler) :=
  match s.gpus[s.currentGpu]? with
  | none => none
  | some gpu => some (gpu, { s with currentGpu := (s.currentGpu + 1) % s.gpus.length })

/-- The GPU with the most free memory, or a panic: `&self.gpus[0]` is evaluated in any case. -/
def gpuWithMostMemory (s : MultiGPUScheduler) : Option GPUInfo :=
  match s.gpus[0]? with
  | none => none
  | some first => some ((maxByKey GPUInfo.memoryFreeMb s.gpus).getD first)

def totalVramGb (s : MultiGPUScheduler) : Except Fault UInt32 := do
  let sum ← checkedSum (s.gpus.map GPUInfo.memoryMb)
  checkedDiv sum 1024

/-- The GPUs of `k` calls of `next_gpu`. -/
def nextGpus (s : MultiGPUScheduler) : ℕ → Option (List GPUInfo × MultiGPUScheduler)
  | 0 => some ([], s)
  | k + 1 =>
    match s.nextGpus k with
    | none => none
    | some (gpus, s) => s.nextGpu.map fun p => (gpus ++ [p.1], p.2)

end MultiGPUScheduler

/-! ## The orchestration in Python -/

/-- TensorRT optimization configuration. -/
structure TensorRTConfig where
  fp16 : Bool := true
  int8 : Bool := false
  sparsity : Bool := false
  maxBatchSize : ℕ := 32
  workspaceMb : ℕ := 4096

/-- NVIDIA GPU inference optimization. -/
structure GPUOptimizer where
  gpuType : String
  tensorrtConfig : TensorRTConfig := {}

/-- `xs[i]`, the position of it, for an index that may count from the end. -/
def position {α : Type} (xs : List α) (i : ℤ) : Except Error ℕ :=
  if 0 ≤ i ∧ i < xs.length then .ok i.toNat
  else if i < 0 ∧ 0 ≤ xs.length + i then .ok (xs.length + i).toNat
  else .error ⟨"IndexError", "list index out of range"⟩

/-- Multi-GPU inference orchestration. -/
structure MultiGPUInference where
  numGpus : ℤ
  gpuType : String
  optimizers : List GPUOptimizer
  currentGpu : ℤ

namespace MultiGPUInference

def new (numGpus : ℤ) (gpuType : String) : MultiGPUInference where
  numGpus := numGpus
  gpuType := gpuType
  optimizers := List.replicate numGpus.toNat { gpuType }
  currentGpu := 0

/-- Round-robin GPU selection: the position of the optimizer that is returned. -/
def nextGpu (s : MultiGPUInference) : Res MultiGPUInference ℕ :=
  match position s.optimizers s.currentGpu with
  | .error e => (.error e, s)
  | .ok i => (.ok i, { s with currentGpu := (s.currentGpu + 1) % s.numGpus })

/-- The memory of one GPU, in GB. -/
def vramPerGpu (gpuType : String) : ℤ :=
  if gpuType = "H100" then 80
  else if gpuType = "A100" then 80
  else if gpuType = "L4" then 24
  else if gpuType = "V100" then 32
  else if gpuType = "T4" then 16
  else if gpuType = "RTX4090" then 24
  else 0

/-- Get total VRAM across all GPUs. -/
def totalVramGb (s : MultiGPUInference) : ℤ := vramPerGpu s.gpuType * s.numGpus

/-- The positions of `k` calls of `next_gpu`, up to the first that raises. -/
def nextGpus (s : MultiGPUInference) : ℕ → Res MultiGPUInference (List ℕ)
  | 0 => (.ok [], s)
  | k + 1 =>
    match s.nextGpus k with
    | (.error e, s) => (.error e, s)
    | (.ok is, s) =>
      match s.nextGpu with
      | (.error e, s) => (.error e, s)
      | (.ok i, s) => (.ok (is ++ [i]), s)

end MultiGPUInference

/-! ## Turns -/

open RoundRobin

namespace MultiGPUScheduler

theorem maxByKey_of_eq {α : Type} {f : α → UInt32} {c : UInt32} {xs : List α}
    (h : ∀ x ∈ xs, f x = c) : maxByKey f xs = xs.getLast? := by
  cases xs with
  | nil => rfl
  | cons x xs =>
    have hx := h x List.mem_cons_self
    have hxs : ∀ y ∈ xs, f y = c := fun y hy => h y (List.mem_cons_of_mem x hy)
    rw [maxByKey, List.getLast?_cons]
    congr 1
    clear h
    induction xs generalizing x with
    | nil => rfl
    | cons y ys ih =>
      have hy := hxs y List.mem_cons_self
      rw [List.foldl_cons, if_pos (by rw [hx, hy]; exact UInt32.le_refl c),
        ih y hy fun z hz => hxs z (List.mem_cons_of_mem y hz), List.getLast?_cons]
      rfl

variable {n : ℕ} (gpuType : String)

theorem gpuWithMostMemory_eq (s : MultiGPUScheduler) (h : s.gpus = (new n gpuType).gpus) :
    s.gpuWithMostMemory = if n = 0 then none else some (.new gpuType (.ofNat (n - 1))) := by
  have hmax : maxByKey GPUInfo.memoryFreeMb s.gpus = s.gpus.getLast? := by
    refine maxByKey_of_eq (c := (GPUType.fromString gpuType).memoryGb * 1024) fun x hx => ?_
    rw [h] at hx
    obtain ⟨i, -, rfl⟩ := List.mem_map.mp hx
    rfl
  unfold gpuWithMostMemory
  rw [hmax, h]
  unfold new
  cases n with
  | zero => rfl
  | succ n =>
    rw [List.range_succ, List.map_append, List.map_singleton, List.getLast?_concat,
      if_neg (Nat.succ_ne_zero n)]
    cases n with
    | zero => rfl
    | succ n =>
      rw [List.range_succ_eq_map]
      rfl

theorem nextGpus_of_pos (hn : 0 < n) (k : ℕ) :
    (new n gpuType).nextGpus k = some ((turns n 0 k).map fun i => .new gpuType (.ofNat i),
      ⟨(new n gpuType).gpus, k % n⟩) := by
  induction k with
  | zero => simp [nextGpus, new]
  | succ k ih =>
    have hget : (new n gpuType).gpus[k % n]? = some (.new gpuType (.ofNat (k % n))) := by
      simp [new, Nat.mod_lt k hn]
    rw [nextGpus, ih]
    dsimp only
    unfold nextGpu
    dsimp only
    rw [hget, turns_snoc]
    simp [new]

theorem nextGpus_zero (k : ℕ) : (new 0 gpuType).nextGpus (k + 1) = none := by
  induction k with
  | zero => rfl
  | succ k ih => rw [nextGpus, ih]

end MultiGPUScheduler

namespace MultiGPUInference

variable {n : ℕ} (gpuType : String)

theorem nextGpus_of_pos (hn : 0 < n) (k : ℕ) :
    (new n gpuType).nextGpus k =
      (.ok (turns n 0 k), { new n gpuType with currentGpu := ((k % n : ℕ) : ℤ) }) := by
  induction k with
  | zero => simp [nextGpus, new]
  | succ k ih =>
    have hlt := Nat.mod_lt k hn
    have hpos : position (List.replicate n ({ gpuType } : GPUOptimizer)) ((k % n : ℕ) : ℤ) =
        .ok (k % n) := by
      unfold position
      rw [if_pos (by rw [List.length_replicate]; omega), Int.toNat_natCast]
    rw [nextGpus, ih]
    dsimp only
    unfold nextGpu new
    dsimp only
    rw [Int.toNat_natCast, hpos, turns_snoc, Nat.zero_add]
    dsimp only
    have hmod : (((k % n : ℕ) : ℤ) + 1) % (n : ℤ) = (((k + 1) % n : ℕ) : ℤ) := by
      rw [← Nat.cast_succ, ← Int.natCast_mod, Nat.succ_eq_add_one, Nat.mod_add_mod]
    rw [hmod]

theorem nextGpus_zero (k : ℕ) : ∃ e s, (new 0 gpuType).nextGpus (k + 1) = (.error e, s) := by
  induction k with
  | zero => exact ⟨_, _, rfl⟩
  | succ k ih =>
    obtain ⟨e, s, h⟩ := ih
    exact ⟨e, s, by rw [nextGpus, h]⟩

end MultiGPUInference

/-- **Turns.** `k` calls of `next_gpu` end alike in both languages: without a GPU they fail, else
they visit the same devices, each one `k / n` times and the first `k % n` once more. The GPU with
the most memory is the last one, before and after. -/
theorem next_gpu_agree (n k : ℕ) (gpuType : String) :
    match (MultiGPUScheduler.new n gpuType).nextGpus k,
      ((MultiGPUInference.new n gpuType).nextGpus k).1 with
    | some (gpus, s), .ok positions =>
      gpus.map GPUInfo.deviceId = positions.map UInt32.ofNat ∧
      (∀ i, i < n → positions.count i = k / n + if i < k % n then 1 else 0) ∧
      s.gpuWithMostMemory = if n = 0 then none else some (.new gpuType (.ofNat (n - 1)))
    | none, .error _ => n = 0 ∧ 0 < k
    | _, _ => False := by
  rcases Nat.eq_zero_or_pos n with rfl | hn
  · cases k with
    | zero =>
      refine ⟨rfl, fun i hi => by omega, ?_⟩
      exact MultiGPUScheduler.gpuWithMostMemory_eq gpuType _ rfl
    | succ k =>
      obtain ⟨e, s, h⟩ := MultiGPUInference.nextGpus_zero gpuType k
      rw [MultiGPUScheduler.nextGpus_zero, show ((0 : ℕ) : ℤ) = 0 from rfl, h]
      exact ⟨rfl, Nat.succ_pos k⟩
  · rw [MultiGPUScheduler.nextGpus_of_pos gpuType hn, MultiGPUInference.nextGpus_of_pos gpuType hn]
    refine ⟨?_, fun i hi => count_turns hi k, ?_⟩
    · rw [List.map_map]
      exact List.map_congr_left fun i _ => rfl
    · exact MultiGPUScheduler.gpuWithMostMemory_eq gpuType _ rfl

/-! ## Memory -/

namespace GPUType

theorem vramPerGpu_eq (name : String) :
    MultiGPUInference.vramPerGpu name = (ofCapitals name).memoryGb.toNat := by
  unfold MultiGPUInference.vramPerGpu ofCapitals
  split_ifs <;> rfl

theorem memoryGb_eq_zero_iff {t : GPUType} : t.memoryGb.toNat = 0 ↔ t = .unknown := by
  cases t <;> decide

/-- A known name is in capitals. -/
theorem toUpper_of_ofCapitals {name : String} (h : ofCapitals name ≠ .unknown) :
    name.toUpper = name := by
  unfold ofCapitals at h
  split_ifs at h with h₁ h₂ h₃ h₄ h₅ h₆
  · rw [h₁]; decide +kernel
  · rw [h₂]; decide +kernel
  · rw [h₃]; decide +kernel
  · rw [h₄]; decide +kernel
  · rw [h₅]; decide +kernel
  · rw [h₆]; decide +kernel
  · exact absurd rfl h

/-- Both languages see the same memory in a name they both know, and in one that neither knows. -/
theorem memoryGb_fromString_eq_iff (name : String) :
    ((fromString name).memoryGb.toNat : ℤ) = MultiGPUInference.vramPerGpu name ↔
      fromString name = .unknown ∨ name.toUpper = name := by
  rw [vramPerGpu_eq, Nat.cast_inj]
  by_cases hup : name.toUpper = name
  · have hfrom : fromString name = ofCapitals name := by rw [fromString, hup]
    rw [hfrom]
    exact iff_of_true rfl (.inr hup)
  · have hcap : ofCapitals name = .unknown := by
      by_contra h
      exact hup (toUpper_of_ofCapitals h)
    rw [hcap, or_iff_left hup, ← memoryGb_eq_zero_iff]
    rfl

end GPUType

theorem GPUInfo.toNat_memoryMb_new (gpuType : String) (deviceId : UInt32) :
    (GPUInfo.new gpuType deviceId).memoryMb.toNat =
      (GPUType.fromString gpuType).memoryGb.toNat * 1024 := by
  unfold GPUInfo.new
  cases GPUType.fromString gpuType <;> rfl

theorem MultiGPUScheduler.sum_memoryMb (n : ℕ) (gpuType : String) :
    (((new n gpuType).gpus.map GPUInfo.memoryMb).map UInt32.toNat).sum =
      n * ((GPUType.fromString gpuType).memoryGb.toNat * 1024) := by
  have hall : ∀ m ∈ ((new n gpuType).gpus.map GPUInfo.memoryMb).map UInt32.toNat,
      m = (GPUType.fromString gpuType).memoryGb.toNat * 1024 := by
    intro m hm
    simp only [new, List.map_map, List.mem_map] at hm
    obtain ⟨i, -, rfl⟩ := hm
    exact GPUInfo.toNat_memoryMb_new gpuType _
  rw [List.sum_eq_card_nsmul _ _ hall]
  simp [new]

theorem MultiGPUScheduler.totalVramGb_eq_ok {n : ℕ} {gpuType : String} {v : UInt32} :
    (new n gpuType).totalVramGb = .ok v ↔
      n * ((GPUType.fromString gpuType).memoryGb.toNat * 1024) < 2 ^ 32 ∧
        v.toNat = n * (GPUType.fromString gpuType).memoryGb.toNat := by
  unfold totalVramGb
  rw [checkedSum_bind_eq_ok, sum_memoryMb]
  refine and_congr_right fun hlt => ?_
  rw [← bind_pure (checkedDiv _ _), checkedDiv_bind_eq_ok, and_iff_right (by decide), pure_eq_ok,
    ← UInt32.toNat_inj, UInt32.toNat_div, UInt32.toNat_ofNat_of_lt' hlt, ← Nat.mul_assoc, eq_comm]
  exact iff_of_eq (congrArg (v.toNat = ·) (Nat.mul_div_cancel _ (by decide)))

/-- **Memory.** The sum in Rust overflows when the memory of all GPUs in MB is out of range. Else the
two totals are the same unless there are GPUs of a known type whose name is not in capitals. -/
theorem vram_agree (n : ℕ) (gpuType : String) :
    match (MultiGPUScheduler.new n gpuType).totalVramGb with
    | .ok v =>
      n * ((GPUType.fromString gpuType).memoryGb.toNat * 1024) < 2 ^ 32 ∧
      ((v.toNat : ℤ) = (MultiGPUInference.new n gpuType).totalVramGb ↔
        n = 0 ∨ GPUType.fromString gpuType = .unknown ∨ gpuType.toUpper = gpuType)
    | .error _ => 2 ^ 32 ≤ n * ((GPUType.fromString gpuType).memoryGb.toNat * 1024) := by
  cases h : (MultiGPUScheduler.new n gpuType).totalVramGb with
  | ok v =>
    obtain ⟨hlt, hv⟩ := MultiGPUScheduler.totalVramGb_eq_ok.mp h
    refine ⟨hlt, ?_⟩
    rw [hv, ← GPUType.memoryGb_fromString_eq_iff]
    show ((n * _ : ℕ) : ℤ) = MultiGPUInference.vramPerGpu gpuType * (n : ℤ) ↔ _
    rw [Nat.cast_mul, mul_comm (MultiGPUInference.vramPerGpu gpuType), mul_eq_mul_left_iff,
      or_comm, Nat.cast_eq_zero]
  | error e =>
    by_contra hlt
    rw [not_le] at hlt
    have hvram : n * (GPUType.fromString gpuType).memoryGb.toNat < 2 ^ 32 := by
      rw [← Nat.mul_assoc] at hlt
      exact (Nat.le_mul_of_pos_right _ (by decide)).trans_lt hlt
    rw [MultiGPUScheduler.totalVramGb_eq_ok.mpr ⟨hlt, UInt32.toNat_ofNat_of_lt' hvram⟩] at h
    cases h

end PyStreamAI
