import PyStreamAI.MemoryBudget
import PyStreamAI.Rust.U32

/-!
# The arithmetic of the memory pool

The methods of the pool with every `u32` operation checked (`checkedStep`). As long as nothing
overflows the counter covers the live buffers (`Covers`), so `deallocate` never goes below zero; what
remains are the sums of `allocate`, which see the size modulo `2 ^ 32`, and the percentage of
`get_memory_stats`, which divides by the limit of the pool (`faultFree_iff`).
-/

open Py Machine Rust

namespace PyStreamAI

namespace MemoryPool

/-! ## The methods, checked -/

def allocateChecked (s : MemoryPool) (bufferId : String) (sizeBytes : UInt64) :
    Except Fault (Res MemoryPool Bool) := do
  let kib ← checkedMul s.usedMemoryMb 1024
  let bytes ← checkedMul kib 1024
  let total ← checkedAdd bytes sizeBytes.toUInt32
  if total > s.bufferSize.toUInt32 then return (.ok false, s)
  else if 2 ^ 63 ≤ sizeBytes.toNat then
    return (.error ⟨"PanicException", "capacity overflow"⟩, s)
  else
    let usedMemoryMb ← checkedAdd s.usedMemoryMb (sizeBytes / (1024 * 1024)).toUInt32
    return (.ok true, { s with buffers := s.buffers.set bufferId ⟨sizeBytes⟩, usedMemoryMb })

def deallocateChecked (s : MemoryPool) (bufferId : String) : Except Fault MemoryPool :=
  match s.buffers.get? bufferId with
  | some buffer => do
    let usedMemoryMb ← checkedSub s.usedMemoryMb (buffer.len / (1024 * 1024)).toUInt32
    return { s with buffers := s.buffers.erase bufferId, usedMemoryMb }
  | none => .ok s

def getMemoryStatsChecked (s : MemoryPool) : Except Fault MemoryStats := do
  let hundredfold ← checkedMul s.usedMemoryMb 100
  let percent ← checkedDiv hundredfold s.cpuMemoryMb
  return { usedMb := s.usedMemoryMb
           gpuMemoryMb := s.gpuMemoryMb
           cpuMemoryMb := s.cpuMemoryMb
           utilizationPercent := min percent 100 }

/-- The pool after a call, or the first fault of its arithmetic. -/
def checkedStep (s : MemoryPool) : Op → Except Fault MemoryPool
  | .allocate bufferId sizeBytes => (s.allocateChecked bufferId sizeBytes).map Prod.snd
  | .deallocate bufferId => s.deallocateChecked bufferId
  | .getBuffer _ => .ok s
  | .getMemoryStats => s.getMemoryStatsChecked.map fun _ => s
  | .clear => .ok s.clear

/-- The sums of the call stay below `2 ^ 32`, and there is a limit to divide by. -/
def WithinRange (s : MemoryPool) : Op → Prop
  | .allocate _ sizeBytes =>
    s.usedMemoryMb.toNat * 2 ^ 20 + sizeBytes.toNat % 2 ^ 32 < 2 ^ 32 ∧
      (s.Accepts sizeBytes → s.usedMemoryMb.toNat + sizeBytes.toNat / 2 ^ 20 % 2 ^ 32 < 2 ^ 32)
  | .getMemoryStats => s.usedMemoryMb.toNat * 100 < 2 ^ 32 ∧ s.cpuMemoryMb ≠ 0
  | _ => True

/-! ## What the checks say -/

section Calls

variable {s : MemoryPool} (id : String) {size : UInt64}

/-- The sum that an allocation compares, taken step by step. -/
theorem sum_inRange_iff (s : MemoryPool) (size : UInt64) :
    (s.usedMemoryMb.toNat * (1024 : UInt32).toNat < 2 ^ 32 ∧
        (s.usedMemoryMb * 1024).toNat * (1024 : UInt32).toNat < 2 ^ 32 ∧
        (s.usedMemoryMb * 1024 * 1024).toNat + size.toUInt32.toNat < 2 ^ 32) ↔
      s.usedMemoryMb.toNat * 2 ^ 20 + size.toNat % 2 ^ 32 < 2 ^ 32 := by
  have hnum : (1024 : UInt32).toNat = 1024 := rfl
  have hkib : (s.usedMemoryMb * 1024).toNat = s.usedMemoryMb.toNat * 1024 % 2 ^ 32 :=
    UInt32.toNat_mul _ _
  have hbytes : (s.usedMemoryMb * 1024 * 1024).toNat =
      (s.usedMemoryMb * 1024).toNat * 1024 % 2 ^ 32 := UInt32.toNat_mul _ _
  rw [hbytes, hkib, UInt64.toNat_toUInt32, hnum]
  omega

theorem allocateChecked_eq_ok {r : Res MemoryPool Bool} :
    s.allocateChecked id size = .ok r ↔
      s.WithinRange (.allocate id size) ∧ s.allocate id size = r := by
  unfold allocateChecked
  show _ ↔ (_ ∧ (s.Accepts size → _)) ∧ _
  rw [checkedMul_bind_eq_ok, checkedMul_bind_eq_ok, checkedAdd_bind_eq_ok, ← sum_inRange_iff,
    and_assoc, and_assoc, and_assoc]
  refine and_congr_right fun _ => and_congr_right fun _ => and_congr_right fun _ => ?_
  by_cases hacc : s.Accepts size
  · have hcheck := (check_iff s size).not.mpr (not_lt.mpr hacc.1)
    rw [if_neg hcheck, if_neg (not_le.mpr hacc.2), checkedAdd_bind_eq_ok, toNat_div_toUInt32,
      allocate_of_accepts id hacc]
    constructor
    · rintro ⟨hlt, hr⟩
      exact ⟨fun _ => hlt, Except.ok.inj hr⟩
    · rintro ⟨hlt, rfl⟩
      exact ⟨hlt hacc, rfl⟩
  · rw [and_iff_right fun h => absurd h hacc]
    unfold allocate
    split_ifs with hcheck hlarge
    · exact pure_eq_ok
    · exact pure_eq_ok
    · exact absurd ⟨not_lt.mp ((check_iff s size).not.mp hcheck), not_le.mp hlarge⟩ hacc

theorem deallocateChecked_eq_ok {r : MemoryPool} :
    s.deallocateChecked id = .ok r ↔
      (∀ b, s.buffers.get? id = some b →
        b.len.toNat / 2 ^ 20 % 2 ^ 32 ≤ s.usedMemoryMb.toNat) ∧ s.deallocate id = r := by
  unfold deallocateChecked deallocate
  cases hb : s.buffers.get? id with
  | some b =>
    dsimp only
    rw [checkedSub_bind_eq_ok, toNat_div_toUInt32]
    constructor
    · rintro ⟨hle, hr⟩
      exact ⟨fun b' hb' => Option.some.inj hb' ▸ hle, Except.ok.inj hr⟩
    · rintro ⟨hle, rfl⟩
      exact ⟨hle b rfl, rfl⟩
  | none =>
    constructor
    · intro hr
      exact ⟨fun b' hb' => absurd hb' (Option.some_ne_none b').symm, Except.ok.inj hr⟩
    · rintro ⟨-, rfl⟩
      rfl

theorem getMemoryStatsChecked_eq_ok {r : MemoryStats} :
    s.getMemoryStatsChecked = .ok r ↔
      s.WithinRange .getMemoryStats ∧ s.getMemoryStats = .ok r := by
  unfold getMemoryStatsChecked
  rw [checkedMul_bind_eq_ok, checkedDiv_bind_eq_ok, WithinRange, and_assoc]
  refine and_congr_right fun _ => and_congr_right fun hne => ?_
  unfold getMemoryStats
  rw [if_neg hne, pure_eq_ok, Except.ok.injEq]

end Calls

/-! ## Runs -/

/-- The counter covers the whole MiB of the live buffers, as it adds them. -/
def Covers (s : MemoryPool) : Prop :=
  s.buffers.sum (fun b => b.len.toNat / 2 ^ 20 % 2 ^ 32) ≤ s.usedMemoryMb.toNat

section Steps

variable {s : MemoryPool}

/-- The counter covers each live buffer. -/
theorem Covers.le (h : s.Covers) {id : String} {b : Buffer} (hb : s.buffers.get? id = some b) :
    b.len.toNat / 2 ^ 20 % 2 ^ 32 ≤ s.usedMemoryMb.toNat := by
  have herase := Dict.sum_erase (fun b : Buffer => b.len.toNat / 2 ^ 20 % 2 ^ 32) s.buffers id
  rw [hb, Option.elim_some] at herase
  unfold Covers at h
  omega

/-- While the counter covers the live buffers, a call has no fault exactly when it is within
range. -/
theorem checkedStep_iff (h : s.Covers) (op : Op) :
    s.checkedStep op = .ok (s.step op) ↔ s.WithinRange op := by
  cases op with
  | allocate id size =>
    show (s.allocateChecked id size).map Prod.snd = .ok (s.allocate id size).2 ↔ _
    constructor
    · intro hok
      cases hc : s.allocateChecked id size with
      | error fault => rw [hc] at hok; cases hok
      | ok r => exact ((allocateChecked_eq_ok id).mp hc).1
    · intro hrange
      rw [(allocateChecked_eq_ok id).mpr ⟨hrange, rfl⟩]
      rfl
  | deallocate id =>
    exact iff_of_true ((deallocateChecked_eq_ok id).mpr ⟨fun _ hb => h.le hb, rfl⟩) trivial
  | getBuffer id => exact iff_of_true rfl trivial
  | getMemoryStats =>
    show s.getMemoryStatsChecked.map (fun _ => s) = .ok s ↔ _
    constructor
    · intro hok
      cases hc : s.getMemoryStatsChecked with
      | error fault => rw [hc] at hok; cases hok
      | ok r => exact (getMemoryStatsChecked_eq_ok.mp hc).1
    · intro hrange
      have hstats := getMemoryStatsChecked_eq_ok.mpr ⟨hrange, if_neg hrange.2⟩
      rw [hstats]
      rfl
  | clear => exact iff_of_true rfl trivial

theorem Covers.step (h : s.Covers) {op : Op} (hrange : s.WithinRange op) : (s.step op).Covers := by
  cases op with
  | allocate id size =>
    show (s.allocate id size).2.Covers
    by_cases hacc : s.Accepts size
    · have herase := Dict.sum_erase (fun b : Buffer => b.len.toNat / 2 ^ 20 % 2 ^ 32) s.buffers id
      have hused := used_allocate id hacc
      have hlt := hrange.2 hacc
      unfold Covers at h ⊢
      rw [buffers_allocate id hacc, Dict.sum_set, hused]
      dsimp only
      omega
    · rw [(allocate_of_not id hacc).2]
      exact h
  | deallocate id =>
    show (s.deallocate id).Covers
    cases hb : s.buffers.get? id with
    | some b =>
      have hsum := sum_deallocate hb fun b => b.len.toNat / 2 ^ 20 % 2 ^ 32
      have hused := used_deallocate hb
      have hle := h.le hb
      have hbound := s.usedMemoryMb.toNat_lt
      rw [length_bytes] at hused
      unfold Covers at h ⊢
      omega
    | none =>
      rw [deallocate_of_none id hb]
      exact h
  | getBuffer id => exact h
  | getMemoryStats => exact h
  | clear => exact Nat.zero_le _

end Steps

/-- **Arithmetic.** No call of a run has a `u32` sum, product or difference out of range or divides
by zero, exactly when the sums of each allocation and the percentage of each `get_memory_stats` stay
below `2 ^ 32` and statistics are asked of a pool with a limit. -/
theorem faultFree_iff (maxBufferSizeMb gpuMemoryMb : UInt32) (tr : List Op) :
    (∀ pre op, pre ++ [op] <+: tr →
      (run step (init maxBufferSizeMb gpuMemoryMb) pre).checkedStep op =
        .ok ((run step (init maxBufferSizeMb gpuMemoryMb) pre).step op)) ↔
      Along step WithinRange (init maxBufferSizeMb gpuMemoryMb) tr := by
  have hcovers : (init maxBufferSizeMb gpuMemoryMb).Covers := Nat.zero_le _
  exact along_iff_forall.symm.trans <| along_congr (I := Covers)
    (fun s op h => checkedStep_iff h op)
    (fun s op h hok => h.step ((checkedStep_iff h op).mp hok)) hcovers

/-- The statistics of a pool of 0 MiB divide by zero. -/
theorem noLimit_faults :
    (init 0 0).getMemoryStatsChecked = .error .divisionByZero ∧
      ¬ ∀ pre op, pre ++ [op] <+: [Op.getMemoryStats] →
        (run step (init 0 0) pre).checkedStep op = .ok ((run step (init 0 0) pre).step op) := by
  have hfault : (init 0 0).getMemoryStatsChecked = .error .divisionByZero := rfl
  refine ⟨hfault, fun h => ?_⟩
  have hok : (init 0 0).getMemoryStatsChecked.map (fun _ => init 0 0) = .ok (init 0 0) :=
    h [] .getMemoryStats List.prefix_rfl
  rw [hfault] at hok
  cases hok

end MemoryPool

end PyStreamAI
