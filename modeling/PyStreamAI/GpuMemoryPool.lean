import Mathlib.Data.List.Nodup
import Mathlib.Data.List.Perm.Basic
import PyStreamAI.Machine
import PyStreamAI.Py.Basic

/-!
# GPU allocations

The pool numbers an allocation by how many are live when it is granted, and a number comes back once
allocations are released: two live allocations then share an id. The check against the capacity adds
two `u32` values, which wrap in a release build. Ids and accounts are right throughout a history
exactly when no granted request wraps and none gets the number of a live allocation
(`unambiguous_iff`). Releases give a position in the list of live allocations.
-/

open Py Machine

namespace PyStreamAI

/-- GPU memory pooling for inference. The number of allocations stays below a `usize`, so counting
it up cannot overflow. -/
structure GPUMemoryPool where
  totalMemoryMb : UInt32
  usedMemoryMb : UInt32
  maxAllocations : ℕ
  currentAllocations : ℕ
  deriving DecidableEq

namespace GPUMemoryPool

/-- `GPUMemoryPool::new`. -/
def init (totalMemoryMb : UInt32) (maxAllocations : ℕ) : GPUMemoryPool where
  totalMemoryMb
  usedMemoryMb := 0
  maxAllocations
  currentAllocations := 0

/-- The id of an allocation granted with `n` allocations live. -/
def allocationId (n : ℕ) : String := "gpu_alloc_" ++ toString n

def allocate (s : GPUMemoryPool) (sizeMb : UInt32) : Except String String × GPUMemoryPool :=
  if s.usedMemoryMb + sizeMb > s.totalMemoryMb then (.error "GPU out of memory", s)
  else if s.currentAllocations ≥ s.maxAllocations then (.error "Too many allocations", s)
  else
    (.ok (allocationId s.currentAllocations),
      { s with
        usedMemoryMb := s.usedMemoryMb + sizeMb
        currentAllocations := s.currentAllocations + 1 })

/-- `a.saturating_sub(b)`. -/
def saturatingSub (a b : UInt32) : UInt32 := if b ≤ a then a - b else 0

def deallocate (s : GPUMemoryPool) (sizeMb : UInt32) : GPUMemoryPool :=
  { s with
    usedMemoryMb := saturatingSub s.usedMemoryMb sizeMb
    currentAllocations := s.currentAllocations - 1 }

/-- The request passes both checks. -/
def Grants (s : GPUMemoryPool) (sizeMb : UInt32) : Prop :=
  s.usedMemoryMb + sizeMb ≤ s.totalMemoryMb ∧ s.currentAllocations < s.maxAllocations

instance (s : GPUMemoryPool) (sizeMb : UInt32) : Decidable (s.Grants sizeMb) :=
  inferInstanceAs (Decidable (_ ∧ _))

theorem allocationId_injective : Function.Injective allocationId := fun _ _ h =>
  append_toString_inj h

theorem allocate_of_grants {s : GPUMemoryPool} {sizeMb : UInt32} (h : s.Grants sizeMb) :
    s.allocate sizeMb = (.ok (allocationId s.currentAllocations),
      { s with
        usedMemoryMb := s.usedMemoryMb + sizeMb
        currentAllocations := s.currentAllocations + 1 }) := by
  unfold allocate
  rw [if_neg (UInt32.not_lt.mpr h.1), if_neg (Nat.not_le.mpr h.2)]

theorem allocate_of_not {s : GPUMemoryPool} {sizeMb : UInt32} (h : ¬ s.Grants sizeMb) :
    (∃ e, (s.allocate sizeMb).1 = .error e) ∧ (s.allocate sizeMb).2 = s := by
  unfold allocate
  split_ifs with hmemory hcount
  · exact ⟨⟨_, rfl⟩, rfl⟩
  · exact ⟨⟨_, rfl⟩, rfl⟩
  · exact absurd ⟨UInt32.not_lt.mp hmemory, Nat.not_le.mp hcount⟩ h

end GPUMemoryPool

/-! ## Live allocations -/

/-- A live allocation, and how many others were live when it was granted. -/
structure Allocation where
  id : String
  sizeMb : UInt32
  others : ℕ
  deriving DecidableEq

/-- The pool together with its live allocations, oldest first. -/
structure GPULedger where
  pool : GPUMemoryPool
  live : List Allocation
  deriving DecidableEq

namespace GPULedger

/-- A call: a request, or the release of the `i`th live allocation. -/
inductive Op
  | allocate (sizeMb : UInt32)
  | deallocate (i : ℕ)

def init (totalMemoryMb : UInt32) (maxAllocations : ℕ) : GPULedger where
  pool := .init totalMemoryMb maxAllocations
  live := []

/-- The ledger after a call. Without an `i`th live allocation there is nothing to release. -/
def step (s : GPULedger) : Op → GPULedger
  | .allocate sizeMb =>
    match s.pool.allocate sizeMb with
    | (.ok id, pool) => { pool, live := s.live ++ [⟨id, sizeMb, s.live.length⟩] }
    | (.error _, pool) => { s with pool }
  | .deallocate i =>
    match s.live[i]? with
    | none => s
    | some a => { pool := s.pool.deallocate a.sizeMb, live := s.live.eraseIdx i }

/-- The live sizes, exactly. -/
def liveMb (s : GPULedger) : ℕ := (s.live.map fun a => a.sizeMb.toNat).sum

/-- Live ids are distinct, and the used memory is the sum of the live sizes and fits. -/
structure Unambiguous (s : GPULedger) : Prop where
  ids : (s.live.map Allocation.id).Nodup
  used : s.pool.usedMemoryMb.toNat = s.liveMb
  fits : s.pool.usedMemoryMb.toNat ≤ s.pool.totalMemoryMb.toNat

/-- A request that is granted does not wrap, and no live allocation was granted with as many others
live as there are now. -/
def GrantsFresh (s : GPULedger) : Op → Prop
  | .allocate sizeMb => s.pool.Grants sizeMb →
    s.pool.usedMemoryMb.toNat + sizeMb.toNat < 2 ^ 32 ∧ ∀ a ∈ s.live, a.others ≠ s.live.length
  | .deallocate _ => True

/-- The pool counts the live allocations, and their ids are their numbers. -/
structure Counted (s : GPULedger) : Prop where
  current : s.pool.currentAllocations = s.live.length
  ids : ∀ a ∈ s.live, a.id = GPUMemoryPool.allocationId a.others

/-- The allocation that a granted request makes. -/
def granted (s : GPULedger) (sizeMb : UInt32) : Allocation :=
  ⟨GPUMemoryPool.allocationId s.live.length, sizeMb, s.live.length⟩

variable {s : GPULedger}

/-! ## Steps -/

theorem step_allocate_of_grants (hcounted : s.Counted) {sizeMb : UInt32}
    (h : s.pool.Grants sizeMb) :
    s.step (.allocate sizeMb) =
      { pool := { s.pool with
          usedMemoryMb := s.pool.usedMemoryMb + sizeMb
          currentAllocations := s.live.length + 1 }
        live := s.live ++ [s.granted sizeMb] } := by
  unfold step granted
  dsimp only
  rw [GPUMemoryPool.allocate_of_grants h, hcounted.current]

theorem step_allocate_of_not {sizeMb : UInt32} (h : ¬ s.pool.Grants sizeMb) :
    s.step (.allocate sizeMb) = s := by
  obtain ⟨⟨e, herror⟩, hpool⟩ := GPUMemoryPool.allocate_of_not h
  have hpair : s.pool.allocate sizeMb = (.error e, s.pool) := Prod.ext herror hpool
  unfold step
  dsimp only
  rw [hpair]

theorem step_deallocate_of_none {i : ℕ} (h : s.live[i]? = none) : s.step (.deallocate i) = s := by
  unfold step
  dsimp only
  rw [h]

theorem step_deallocate_of_some {i : ℕ} {a : Allocation} (h : s.live[i]? = some a) :
    s.step (.deallocate i) =
      { pool := s.pool.deallocate a.sizeMb, live := s.live.eraseIdx i } := by
  unfold step
  dsimp only
  rw [h]

/-- A release takes its allocation out, wherever it stands. -/
theorem live_perm {i : ℕ} {a : Allocation} (h : s.live[i]? = some a) :
    (a :: s.live.eraseIdx i).Perm s.live := by
  obtain ⟨hi, rfl⟩ := List.getElem?_eq_some_iff.mp h
  exact List.getElem_cons_eraseIdx_perm hi

theorem Counted.step (h : s.Counted) (op : Op) : (s.step op).Counted := by
  cases op with
  | allocate sizeMb =>
    by_cases hgrants : s.pool.Grants sizeMb
    · rw [step_allocate_of_grants h hgrants]
      refine ⟨by simp, fun a ha => ?_⟩
      rcases List.mem_append.mp ha with ha | ha
      · exact h.ids a ha
      · rw [List.mem_singleton.mp ha]
        rfl
    · rw [step_allocate_of_not hgrants]
      exact h
  | deallocate i =>
    cases ha : s.live[i]? with
    | none =>
      rw [step_deallocate_of_none ha]
      exact h
    | some a =>
      rw [step_deallocate_of_some ha]
      have hperm := live_perm ha
      have hlen := hperm.length_eq
      rw [List.length_cons] at hlen
      refine ⟨?_, fun b hb => h.ids b (hperm.mem_iff.mp (List.mem_cons_of_mem a hb))⟩
      show s.pool.currentAllocations - 1 = (s.live.eraseIdx i).length
      rw [h.current]
      omega

theorem liveMb_deallocate {i : ℕ} {a : Allocation} (h : s.live[i]? = some a) :
    a.sizeMb.toNat + ((s.live.eraseIdx i).map fun b => b.sizeMb.toNat).sum = s.liveMb := by
  have hsum := ((live_perm h).map fun b => b.sizeMb.toNat).sum_eq
  rwa [List.map_cons, List.sum_cons] at hsum

/-- Releases keep ids distinct and the account exact. -/
theorem Unambiguous.deallocate (h : s.Unambiguous) (i : ℕ) :
    (s.step (.deallocate i)).Unambiguous := by
  cases ha : s.live[i]? with
  | none =>
    rw [step_deallocate_of_none ha]
    exact h
  | some a =>
    rw [step_deallocate_of_some ha]
    have hsum := liveMb_deallocate ha
    have hused := h.used
    have hle : a.sizeMb ≤ s.pool.usedMemoryMb := by
      rw [UInt32.le_iff_toNat_le]
      omega
    have hsub : (GPUMemoryPool.saturatingSub s.pool.usedMemoryMb a.sizeMb).toNat =
        s.pool.usedMemoryMb.toNat - a.sizeMb.toNat := by
      unfold GPUMemoryPool.saturatingSub
      rw [if_pos hle, UInt32.toNat_sub_of_le _ _ hle]
    refine ⟨?_, ?_, ?_⟩
    · exact h.ids.sublist ((List.eraseIdx_sublist s.live i).map _)
    · show (GPUMemoryPool.saturatingSub s.pool.usedMemoryMb a.sizeMb).toNat =
        ((s.live.eraseIdx i).map fun b => b.sizeMb.toNat).sum
      omega
    · show (GPUMemoryPool.saturatingSub s.pool.usedMemoryMb a.sizeMb).toNat ≤
        s.pool.totalMemoryMb.toNat
      have hfits := h.fits
      omega

/-- A granted request keeps ids distinct and the account exact when it does not wrap and its number
is free. -/
theorem unambiguous_allocate_iff (hcounted : s.Counted) (h : s.Unambiguous) {sizeMb : UInt32}
    (hgrants : s.pool.Grants sizeMb) :
    (s.step (.allocate sizeMb)).Unambiguous ↔
      s.pool.usedMemoryMb.toNat + sizeMb.toNat < 2 ^ 32 ∧
        ∀ a ∈ s.live, a.others ≠ s.live.length := by
  have hwrap : (s.pool.usedMemoryMb + sizeMb).toNat =
      (s.pool.usedMemoryMb.toNat + sizeMb.toNat) % 2 ^ 32 := UInt32.toNat_add _ _
  have hids : ((s.live ++ [s.granted sizeMb]).map Allocation.id).Nodup ↔
      ∀ a ∈ s.live, a.others ≠ s.live.length := by
    rw [List.map_append, List.map_singleton, List.nodup_append, and_iff_right h.ids,
      and_iff_right (List.nodup_singleton _)]
    constructor
    · intro hdisjoint a ha hothers
      refine hdisjoint a.id (List.mem_map_of_mem ha) _ (List.mem_singleton_self _) ?_
      rw [hcounted.ids a ha, hothers]
      rfl
    · intro hothers id hid id' hid' heq
      obtain ⟨a, ha, rfl⟩ := List.mem_map.mp hid
      rw [List.mem_singleton.mp hid', hcounted.ids a ha] at heq
      exact hothers a ha (GPUMemoryPool.allocationId_injective heq)
  have hlive : ((s.live ++ [s.granted sizeMb]).map fun a => a.sizeMb.toNat).sum =
      s.pool.usedMemoryMb.toNat + sizeMb.toNat := by
    rw [List.map_append, List.sum_append, List.map_singleton, List.sum_singleton, h.used]
    rfl
  rw [step_allocate_of_grants hcounted hgrants]
  constructor
  · intro hafter
    have hused : (s.pool.usedMemoryMb + sizeMb).toNat =
        s.pool.usedMemoryMb.toNat + sizeMb.toNat := hafter.used.trans hlive
    have hlt := (s.pool.usedMemoryMb + sizeMb).toNat_lt
    exact ⟨by omega, hids.mp hafter.ids⟩
  · rintro ⟨hsmall, hothers⟩
    refine ⟨hids.mpr hothers, ?_, UInt32.le_iff_toNat_le.mp hgrants.1⟩
    show (s.pool.usedMemoryMb + sizeMb).toNat = _
    rw [hwrap, Nat.mod_eq_of_lt hsmall]
    exact hlive.symm

/-- From an unambiguous ledger a call leads to one exactly when it grants nothing but fresh
requests. -/
theorem grantsFresh_iff (hcounted : s.Counted) (h : s.Unambiguous) (op : Op) :
    s.GrantsFresh op ↔ (s.step op).Unambiguous := by
  cases op with
  | allocate sizeMb =>
    by_cases hgrants : s.pool.Grants sizeMb
    · rw [unambiguous_allocate_iff hcounted h hgrants]
      exact imp_iff_right hgrants
    · rw [step_allocate_of_not hgrants]
      exact iff_of_true (fun hg => absurd hg hgrants) h
  | deallocate i => exact iff_of_true trivial (h.deallocate i)

/-! ## Histories -/

theorem counted_run (totalMemoryMb : UInt32) (maxAllocations : ℕ) (tr : List Op) :
    (run step (init totalMemoryMb maxAllocations) tr).Counted :=
  run_invariant ⟨rfl, fun _ ha => absurd ha List.not_mem_nil⟩ (fun _ h op => h.step op) tr

/-- The pool is unambiguous throughout a history exactly when no granted request wraps and none
finds a live allocation that was granted with as many others live. -/
theorem unambiguous_iff (totalMemoryMb : UInt32) (maxAllocations : ℕ) (tr : List Op) :
    (∀ pre, pre <+: tr → (run step (init totalMemoryMb maxAllocations) pre).Unambiguous) ↔
      Along step GrantsFresh (init totalMemoryMb maxAllocations) tr := by
  refine forall_prefix_iff_along ⟨List.nodup_nil, rfl, Nat.zero_le _⟩ (fun pre h op => ?_) tr
  rw [run_snoc]
  exact grantsFresh_iff (counted_run totalMemoryMb maxAllocations pre) h op

/-- Two allocations, the first released, and a third: the second and the third are `gpu_alloc_1`.
And with 50 of 100 MB used, a request for `2 ^ 32 - 1` MB is granted and lowers the used memory. -/
theorem unambiguous_reused :
    let s := run step (init 100 10) [.allocate 10, .allocate 20, .deallocate 0, .allocate 30]
    let t := run step (init 100 10) [.allocate 50, .allocate 0xffffffff]
    s.live.map Allocation.id = ["gpu_alloc_1", "gpu_alloc_1"] ∧ ¬ s.Unambiguous ∧
      t.pool.usedMemoryMb = 49 ∧ t.liveMb = 50 + (2 ^ 32 - 1) ∧ ¬ t.Unambiguous := by
  intro s t
  have hids : s.live.map Allocation.id = ["gpu_alloc_1", "gpu_alloc_1"] := by decide +kernel
  have hused : t.pool.usedMemoryMb = 49 := by decide +kernel
  have hlive : t.liveMb = 50 + (2 ^ 32 - 1) := by decide +kernel
  refine ⟨hids, fun h => ?_, hused, hlive, fun h => ?_⟩
  · have hnodup := h.ids
    rw [hids] at hnodup
    exact absurd hnodup (by decide)
  · have heq := h.used
    rw [hused, hlive] at heq
    exact absurd heq (by decide)

end GPULedger

end PyStreamAI
