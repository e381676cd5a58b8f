import Mathlib.Algebra.Order.Ring.Int
import PyStreamAI.Reflection
import PyStreamAI.Rust.Usize

/-!
# References to a tensor

A tensor is made with one owner. Each `increment_ref` is one more owner, each `decrement_ref` one
less, and tells whether the tensor should be deallocated. The count stops at zero, so it is the
number of owners raised by what was released too often (`refs_run`): no release says to deallocate
while there is an owner, and as long as nothing is released too often exactly those do that leave
none.
-/

open Machine Reflection

namespace PyStreamAI

/-- Tensor lifecycle management, in a build with overflow checks. -/
structure TensorBuffer where
  id : String
  shape : List UInt64
  dtype : String
  device : String
  sizeBytes : UInt64
  referenceCount : UInt32
  deriving DecidableEq

namespace TensorBuffer

/-- `TensorBuffer::new`: 8 bytes per element. -/
def new (id : String) (shape : List UInt64) (dtype device : String) :
    Except Rust.Fault TensorBuffer := do
  let sizeBytes ← Rust.Usize.checkedMul (← Rust.Usize.checkedProduct shape) 8
  return { id, shape, dtype, device, sizeBytes, referenceCount := 1 }

def incrementRef (b : TensorBuffer) : Except Rust.Fault TensorBuffer := do
  return { b with referenceCount := ← Rust.checkedAdd b.referenceCount 1 }

/-- Whether the tensor should be deallocated. -/
def decrementRef (b : TensorBuffer) : Bool × TensorBuffer :=
  let b := if 0 < b.referenceCount then { b with referenceCount := b.referenceCount - 1 } else b
  (b.referenceCount = 0, b)

/-! ## Histories -/

inductive RefOp
  | increment
  | decrement
  deriving DecidableEq

/-- A call on a tensor, after what the calls of `decrement_ref` returned so far. -/
def call (s : List Bool × TensorBuffer) : RefOp → Except Rust.Fault (List Bool × TensorBuffer)
  | .increment => do return (s.1, ← s.2.incrementRef)
  | .decrement => .ok (s.1 ++ [s.2.decrementRef.1], s.2.decrementRef.2)

/-- Calls on a tensor: what those of `decrement_ref` return, and the tensor after them. -/
def calls (b : TensorBuffer) (ops : List RefOp) : Except Rust.Fault (List Bool × TensorBuffer) :=
  ops.foldlM call ([], b)

/-- How a call changes the number of owners. -/
def RefOp.weight : RefOp → ℤ
  | .increment => 1
  | .decrement => -1

/-- The owners after some calls, less those that released what they did not own. -/
def owners (ops : List RefOp) : ℤ := 1 + (ops.map RefOp.weight).sum

/-- How often the tensor was released more than it was owned, at worst. -/
def overReleased (ops : List RefOp) : ℤ := deficit 1 (ops.map RefOp.weight)

/-- The histories up to each call of `decrement_ref`. -/
def releases (ops : List RefOp) : List (List RefOp) :=
  ops.inits.filter fun pre => pre.getLast? = some .decrement

/-- Nobody owns the tensor, and at no time before were there less owners. -/
def Unowned (ops : List RefOp) : Prop := owners ops ≤ 0 ∧ ∀ pre ∈ ops.inits, owners ops ≤ owners pre

instance (ops : List RefOp) : Decidable (Unowned ops) := inferInstanceAs (Decidable (_ ∧ _))

theorem releases_snoc (ops : List RefOp) (op : RefOp) :
    releases (ops ++ [op]) = releases ops ++ if op = .decrement then [ops ++ [op]] else [] := by
  unfold releases
  rw [List.inits_append, List.filter_append]
  congr 1
  cases op <;> simp [List.inits]

/-- The count as a walk that stops at zero. -/
def walk (ops : List RefOp) : ℤ := run reflect 1 (ops.map RefOp.weight)

theorem walk_snoc (ops : List RefOp) (op : RefOp) :
    walk (ops ++ [op]) = max 0 (walk ops + op.weight) := by
  unfold walk
  rw [List.map_append, List.map_singleton, run_snoc]
  rfl

theorem walk_eq (ops : List RefOp) : walk ops = owners ops + overReleased ops :=
  run_reflect zero_le_one _

theorem walk_eq_zero_iff {ops : List RefOp} : walk ops = 0 ↔ Unowned ops := by
  unfold walk Unowned owners
  rw [run_reflect_eq_zero_iff zero_le_one]
  refine and_congr_right fun _ => ⟨fun h pre hpre => ?_, fun h p hp => ?_⟩
  · exact h _ (((List.mem_inits _ _).mp hpre).map _)
  · obtain ⟨pre, hpre, rfl⟩ := List.prefix_map_iff.mp hp
    exact h pre ((List.mem_inits _ _).mpr hpre)

/-- As long as nothing is released too often, a tensor is unowned when it has no owner. -/
theorem unowned_iff {ops : List RefOp} (h : ∀ pre, pre <+: ops → 0 ≤ owners pre) :
    Unowned ops ↔ owners ops = 0 := by
  constructor
  · exact fun hu => le_antisymm hu.1 (h ops List.prefix_rfl)
  · intro h0
    refine ⟨h0.le, fun pre hpre => ?_⟩
    rw [h0]
    exact h pre ((List.mem_inits _ _).mp hpre)

/-! ## Calls -/

/-- What `decrement_ref` does to a count. -/
theorem decrementRef_spec {b : TensorBuffer} {ops : List RefOp}
    (h : (b.referenceCount.toNat : ℤ) = walk ops) :
    b.decrementRef.1 = decide (Unowned (ops ++ [.decrement])) ∧
    (b.decrementRef.2.referenceCount.toNat : ℤ) = walk (ops ++ [.decrement]) ∧
    { b.decrementRef.2 with referenceCount := 1 } = { b with referenceCount := 1 } := by
  have hcount : (b.decrementRef.2.referenceCount.toNat : ℤ) = walk (ops ++ [.decrement]) := by
    rw [walk_snoc, ← h]
    unfold decrementRef RefOp.weight
    dsimp only
    split_ifs with hpos
    · have hlt : 0 < b.referenceCount.toNat := UInt32.lt_iff_toNat_lt.mp hpos
      have hsub := UInt32.toNat_sub_of_le b.referenceCount 1 (UInt32.le_iff_toNat_le.mpr hlt)
      rw [hsub, UInt32.toNat_one]
      omega
    · have hzero : b.referenceCount.toNat = 0 := by
        rw [UInt32.lt_iff_toNat_lt, UInt32.toNat_zero] at hpos
        omega
      omega
  refine ⟨?_, hcount, ?_⟩
  · apply decide_eq_decide.mpr
    rw [← walk_eq_zero_iff, ← hcount, ← UInt32.toNat_inj, UInt32.toNat_zero]
    exact Int.natCast_eq_zero.symm
  · unfold decrementRef
    dsimp only
    split_ifs <;> rfl

/-- What `increment_ref` does to a count. -/
theorem incrementRef_spec {b : TensorBuffer} {ops : List RefOp}
    (h : (b.referenceCount.toNat : ℤ) = walk ops) :
    match b.incrementRef with
    | .ok b' => (b'.referenceCount.toNat : ℤ) = walk (ops ++ [.increment]) ∧
        { b' with referenceCount := 1 } = { b with referenceCount := 1 }
    | .error _ => walk ops = 2 ^ 32 - 1 := by
  have hlt := b.referenceCount.toNat_lt
  unfold incrementRef Rust.checkedAdd Rust.checked
  rw [UInt32.toNat_one]
  split_ifs with hroom
  · refine ⟨?_, rfl⟩
    have hadd : (b.referenceCount + 1).toNat = b.referenceCount.toNat + 1 := by
      rw [UInt32.toNat_add, UInt32.toNat_one, Nat.mod_eq_of_lt hroom]
    show ((b.referenceCount + 1).toNat : ℤ) = _
    rw [hadd, walk_snoc, ← h, RefOp.weight]
    omega
  · show walk ops = 2 ^ 32 - 1
    omega

theorem calls_snoc (b : TensorBuffer) (ops : List RefOp) (op : RefOp) :
    b.calls (ops ++ [op]) = b.calls ops >>= fun s => call s op := by
  unfold calls
  rw [List.foldlM_append]
  refine congrArg _ (funext fun s => ?_)
  rw [List.foldlM_cons]
  exact bind_pure _

/-- The count of a new tensor is the walk throughout. -/
theorem calls_spec {b : TensorBuffer} (hb : b.referenceCount = 1) (ops : List RefOp) :
    match b.calls ops with
    | .ok (out, b') =>
      out = (releases ops).map (fun pre => decide (Unowned pre)) ∧
      (b'.referenceCount.toNat : ℤ) = walk ops ∧ { b' with referenceCount := 1 } = b
    | .error _ => ∃ pre, pre ++ [.increment] <+: ops ∧ walk pre = 2 ^ 32 - 1 := by
  induction ops using List.reverseRecOn with
  | nil =>
    refine ⟨rfl, ?_, ?_⟩
    · rw [hb]
      rfl
    · rw [← hb]
  | append_singleton ops op ih =>
    rw [calls_snoc]
    cases hcalls : b.calls ops with
    | error e =>
      rw [hcalls] at ih
      obtain ⟨pre, hpre, hwalk⟩ := ih
      exact ⟨pre, hpre.trans (List.prefix_append ops [op]), hwalk⟩
    | ok s =>
      obtain ⟨out, b'⟩ := s
      rw [hcalls] at ih
      obtain ⟨hout, hcount, hrest⟩ := ih
      cases op with
      | decrement =>
        obtain ⟨hfreed, hcount', hrest'⟩ := decrementRef_spec hcount
        have hb' : { b' with referenceCount := 1 } = b := hrest
        refine ⟨?_, hcount', hrest'.trans hb'⟩
        rw [releases_snoc, if_pos rfl, List.map_append, ← hout, List.map_singleton, ← hfreed]
      | increment =>
        have hspec := incrementRef_spec hcount
        show match (b'.incrementRef >>= fun b'' => pure (out, b'')) with
          | .ok (out, b') => _
          | .error _ => _
        cases hinc : b'.incrementRef with
        | error e =>
          rw [hinc] at hspec
          exact ⟨ops, List.prefix_rfl, hspec⟩
        | ok b'' =>
          rw [hinc] at hspec
          refine ⟨?_, hspec.1, hspec.2.trans hrest⟩
          rw [releases_snoc, if_neg (by decide), List.append_nil]
          exact hout

/-- The size is 8 bytes per element, and has to be in range with all products on the way to it. -/
theorem new_spec (id : String) (shape : List UInt64) (dtype device : String) :
    match new id shape dtype device with
    | .ok b => b.sizeBytes.toNat = 8 * Rust.Usize.product shape ∧ b.referenceCount = 1
    | .error _ => (∃ p, p <+: shape ∧ 2 ^ 64 ≤ Rust.Usize.product p) ∨
        2 ^ 64 ≤ 8 * Rust.Usize.product shape := by
  unfold new
  cases hproduct : Rust.Usize.checkedProduct shape with
  | error e => exact Or.inl (Rust.Usize.le_of_checkedProduct_eq_error hproduct)
  | ok elements =>
    have helements := (Rust.Usize.checkedProduct_eq_ok.mp hproduct).2
    show match (Rust.Usize.checkedMul elements 8 >>= fun sizeBytes =>
        pure { id, shape, dtype, device, sizeBytes, referenceCount := 1 } :
          Except Rust.Fault TensorBuffer) with
      | .ok b => _
      | .error _ => _
    cases hsize : Rust.Usize.checkedMul elements 8 with
    | error e =>
      refine Or.inr ?_
      rw [← helements, Nat.mul_comm]
      exact Rust.Usize.le_of_checkedMul_eq_error hsize
    | ok sizeBytes =>
      refine ⟨?_, rfl⟩
      rw [← helements, Nat.mul_comm]
      exact (Rust.Usize.checkedMul_eq_ok.mp hsize).2

/-- **References.** The count of a tensor is the number of its owners and what was released too
often before. A release says to deallocate exactly when nobody owns the tensor and there were never
less owners: when there is none left, as long as nothing is released too often. -/
theorem refs_run (id : String) (shape : List UInt64) (dtype device : String) (ops : List RefOp) :
    match new id shape dtype device >>= fun b => b.calls ops with
    | .ok (freed, b) =>
      b.sizeBytes.toNat = 8 * Rust.Usize.product shape ∧
      (b.referenceCount.toNat : ℤ) = owners ops + overReleased ops ∧
      freed = (releases ops).map (fun pre => decide (Unowned pre)) ∧
      ((∀ pre, pre <+: ops → 0 ≤ owners pre) →
        overReleased ops = 0 ∧ freed = (releases ops).map fun pre => decide (owners pre = 0))
    | .error _ => (∃ p, p <+: shape ∧ 2 ^ 64 ≤ Rust.Usize.product p) ∨
        2 ^ 64 ≤ 8 * Rust.Usize.product shape ∨
        ∃ pre, pre ++ [.increment] <+: ops ∧ owners pre + overReleased pre = 2 ^ 32 - 1 := by
  have hnew := new_spec id shape dtype device
  cases hb : new id shape dtype device with
  | error e =>
    rw [hb] at hnew
    exact hnew.imp_right Or.inl
  | ok b =>
    rw [hb] at hnew
    have hcalls := calls_spec hnew.2 ops
    show match b.calls ops with
      | .ok (freed, b) => _
      | .error _ => _
    cases hs : b.calls ops with
    | error e =>
      rw [hs] at hcalls
      obtain ⟨pre, hpre, hwalk⟩ := hcalls
      exact Or.inr (Or.inr ⟨pre, hpre, (walk_eq pre).symm.trans hwalk⟩)
    | ok s =>
      obtain ⟨freed, b'⟩ := s
      rw [hs] at hcalls
      obtain ⟨hfreed, hcount, hrest⟩ := hcalls
      have hsize : b'.sizeBytes = b.sizeBytes := by rw [← hrest]
      refine ⟨hsize ▸ hnew.1, hcount.trans (walk_eq ops), hfreed, fun howned => ⟨?_, ?_⟩⟩
      · apply deficit_eq_zero_iff.mpr
        intro p hp
        obtain ⟨pre, hpre, rfl⟩ := List.prefix_map_iff.mp hp
        exact howned pre hpre
      · rw [hfreed]
        apply List.map_congr_left
        intro pre hpre
        have hprefix : pre <+: ops := (List.mem_inits _ _).mp (List.mem_of_mem_filter hpre)
        exact decide_eq_decide.mpr (unowned_iff fun q hq => howned q (hq.trans hprefix))

end TensorBuffer

end PyStreamAI
