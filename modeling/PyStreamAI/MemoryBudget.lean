import PyStreamAI.MemoryPool

/-!
# The budget of the memory pool

The counter holds the whole MiB of the live buffers as long as no live buffer of a MiB or more is
replaced and nothing wraps (`accounted_iff`). Modulo `2 ^ 32` it does so for fresh ids whatever the
sizes, and a pool below 4 GiB refuses nothing that fits (`neverRefuses_iff`). The check sees neither
the bytes beyond whole MiB nor what wraps; when it passes with both counted, the live buffers stay
within the budget (`withinBudget_run`).
-/

open Py Machine

namespace PyStreamAI

namespace MemoryPool

variable {s : MemoryPool}

/-! ## Steps of the counter -/

section Steps

variable (id : String) {size : UInt64}

theorem buffers_allocate (h : s.Accepts size) :
    (s.allocate id size).2.buffers = s.buffers.set id ⟨size⟩ := by
  rw [allocate_of_accepts id h]

theorem used_allocate (h : s.Accepts size) : (s.allocate id size).2.usedMemoryMb.toNat =
    (s.usedMemoryMb.toNat + size.toNat / 2 ^ 20) % 2 ^ 32 := by
  rw [allocate_of_accepts id h]
  show (s.usedMemoryMb + (size / (1024 * 1024)).toUInt32).toNat = _
  rw [UInt32.toNat_add, toNat_div_toUInt32, Nat.add_mod_mod]

/-- The whole MiB after an allocation: those of the replaced buffer are gone. -/
theorem liveMb_allocate (h : s.Accepts size) :
    (s.allocate id size).2.liveMb + (s.buffers.get? id).elim 0 (fun b => b.bytes.length / 2 ^ 20) =
      s.liveMb + size.toNat / 2 ^ 20 := by
  have herase := Dict.sum_erase (fun b : Buffer => b.bytes.length / 2 ^ 20) s.buffers id
  unfold liveMb
  rw [buffers_allocate id h, Dict.sum_set, length_bytes]
  dsimp only
  omega

theorem buffers_deallocate (s : MemoryPool) (id : String) :
    (s.deallocate id).buffers = s.buffers.erase id := by
  cases hb : s.buffers.get? id with
  | some b => rw [deallocate_of_some id hb]
  | none => rw [deallocate_of_none id hb, Dict.erase_of_none hb]

variable {id} {b : Buffer} (hb : s.buffers.get? id = some b)
include hb

theorem used_deallocate : (s.deallocate id).usedMemoryMb.toNat =
    (2 ^ 32 - b.bytes.length / 2 ^ 20 % 2 ^ 32 + s.usedMemoryMb.toNat) % 2 ^ 32 := by
  rw [deallocate_of_some id hb]
  show (s.usedMemoryMb - (b.len / (1024 * 1024)).toUInt32).toNat = _
  rw [UInt32.toNat_sub, toNat_div_toUInt32, length_bytes]

theorem sum_deallocate (f : Buffer → ℕ) :
    (s.deallocate id).buffers.sum f + f b = s.buffers.sum f := by
  have herase := Dict.sum_erase f s.buffers id
  rw [hb, Option.elim_some] at herase
  rw [buffers_deallocate]
  exact herase

theorem liveMb_deallocate : (s.deallocate id).liveMb + b.bytes.length / 2 ^ 20 = s.liveMb :=
  sum_deallocate hb _

end Steps

/-! ## Exact accounting -/

/-- The counter holds the whole MiB of the live buffers. -/
def Counted (s : MemoryPool) : Prop := s.usedMemoryMb.toNat = s.liveMb

/-- Exact accounting: the counter holds the whole MiB of the live buffers, and deallocating all of
them, in any order, brings it to zero. -/
structure Accounted (s : MemoryPool) : Prop where
  counted : Counted s
  drained : ∀ ids : List String, s.buffers.keys ⊆ ids →
    (run step s (ids.map Op.deallocate)).usedMemoryMb = 0

/-- Sizes below 4 GiB. -/
def Op.Below4GiB : Op → Prop
  | .allocate _ size => size.toNat < 2 ^ 32
  | _ => True

/-- An allocation that replaces no live buffer of a MiB or more and does not wrap the counter. -/
def CleanAllocate (s : MemoryPool) (op : Op) : Prop :=
  ∀ id size, op = .allocate id size → s.Accepts size →
    (∀ b, s.buffers.get? id = some b → b.bytes.length < 2 ^ 20) ∧
      s.usedMemoryMb.toNat + size.toNat / 2 ^ 20 < 2 ^ 32

theorem Counted.deallocate (h : Counted s) (id : String) : Counted (s.deallocate id) := by
  cases hb : s.buffers.get? id with
  | none =>
    rw [deallocate_of_none id hb]
    exact h
  | some b =>
    have hused := used_deallocate hb
    have hlive := liveMb_deallocate hb
    have hlt := s.usedMemoryMb.toNat_lt
    unfold Counted at h ⊢
    omega

theorem counted_clear (s : MemoryPool) : Counted s.clear := rfl

/-- The live buffers are below 4 GiB. -/
def Small (s : MemoryPool) : Prop := ∀ id b, s.buffers.get? id = some b → b.bytes.length < 2 ^ 32

theorem Small.step (h : Small s) {op : Op} (hop : op.Below4GiB) : Small (s.step op) := by
  cases op with
  | allocate id size =>
    show Small (s.allocate id size).2
    by_cases ha : s.Accepts size
    · intro id' b hb
      rw [buffers_allocate id ha, Dict.get?_set] at hb
      split_ifs at hb
      · rw [← Option.some.inj hb, length_bytes]
        exact hop
      · exact h id' b hb
    · rw [(allocate_of_not id ha).2]
      exact h
  | deallocate id =>
    intro id' b hb
    replace hb : (s.deallocate id).buffers.get? id' = some b := hb
    rw [buffers_deallocate, Dict.get?_erase] at hb
    split_ifs at hb
    exact h id' b hb
  | getBuffer id => exact h
  | getMemoryStats => exact h
  | clear => exact fun _ _ hb => by cases hb

/-- One call keeps the count exact exactly when it is clean. -/
theorem Counted.step_iff (h : Counted s) (hsmall : Small s) (op : Op) :
    CleanAllocate s op ↔ Counted (s.step op) := by
  cases op with
  | allocate id size =>
    show _ ↔ Counted (s.allocate id size).2
    by_cases ha : s.Accepts size
    · have hclean : CleanAllocate s (.allocate id size) ↔
          (∀ b, s.buffers.get? id = some b → b.bytes.length < 2 ^ 20) ∧
            s.usedMemoryMb.toNat + size.toNat / 2 ^ 20 < 2 ^ 32 := by
        refine ⟨fun hc => hc id size rfl ha, fun hc id' size' heq _ => ?_⟩
        cases heq
        exact hc
      have hused := used_allocate id ha
      have hlive := liveMb_allocate id ha
      have hlt := s.usedMemoryMb.toNat_lt
      rw [hclean]
      unfold Counted at h ⊢
      cases hb : s.buffers.get? id with
      | none =>
        rw [hb, Option.elim_none] at hlive
        have hnone : ∀ b, (none : Option Buffer) = some b → b.bytes.length < 2 ^ 20 :=
          fun b hb => by cases hb
        rw [and_iff_right hnone]
        omega
      | some b =>
        rw [hb, Option.elim_some] at hlive
        have hlen := hsmall id b hb
        have hone : (∀ b', some b = some b' → b'.bytes.length < 2 ^ 20) ↔
            b.bytes.length < 2 ^ 20 :=
          ⟨fun hall => hall b rfl, fun hb' b' heq => Option.some.inj heq ▸ hb'⟩
        rw [hone]
        omega
    · rw [(allocate_of_not id ha).2]
      refine ⟨fun _ => h, fun _ id' size' heq ha' => ?_⟩
      cases heq
      exact absurd ha' ha
  | deallocate id => exact ⟨fun _ => h.deallocate id, fun _ _ _ heq => by cases heq⟩
  | getBuffer id => exact ⟨fun _ => h, fun _ _ _ heq => by cases heq⟩
  | getMemoryStats => exact ⟨fun _ => h, fun _ _ _ heq => by cases heq⟩
  | clear => exact ⟨fun _ => counted_clear s, fun _ _ _ heq => by cases heq⟩

theorem buffers_deallocateAll (s : MemoryPool) (ids : List String) :
    (run step s (ids.map Op.deallocate)).buffers = s.buffers.eraseAll ids := by
  induction ids generalizing s with
  | nil => rfl
  | cons id ids ih =>
    rw [List.map_cons, run_cons, ih]
    show (s.deallocate id).buffers.eraseAll ids = _
    rw [buffers_deallocate]
    rfl

/-- An exact count is brought to zero by deallocating the live buffers. -/
theorem Counted.accounted (h : Counted s) : Accounted s := by
  refine ⟨h, fun ids hids => ?_⟩
  have hcounted : Counted (run step s (ids.map Op.deallocate)) := by
    clear hids
    induction ids generalizing s with
    | nil => exact h
    | cons id ids ih => exact ih (h.deallocate id)
  have hempty : (run step s (ids.map Op.deallocate)).buffers.keys = [] := by
    refine List.eq_nil_iff_forall_not_mem.mpr fun id => Dict.get?_eq_none.mp ?_
    rw [buffers_deallocateAll, Dict.get?_eraseAll]
    split_ifs with hid
    · rfl
    · exact Dict.get?_eq_none.mpr fun hkey => hid (hids hkey)
  have hentries : (run step s (ids.map Op.deallocate)).buffers.entries = [] :=
    List.map_eq_nil_iff.mp hempty
  have hzero : (run step s (ids.map Op.deallocate)).liveMb = 0 := by
    unfold liveMb Dict.sum
    rw [hentries]
    rfl
  exact UInt32.toNat_inj.mp (hcounted.trans hzero)

/-- **Exact accounting.** With sizes below 4 GiB, a history is accounted for exactly throughout
exactly when none of its allocations replaces a live buffer of a MiB or more or wraps the
counter. -/
theorem accounted_iff (maxBufferSizeMb gpuMemoryMb : UInt32) {tr : List Op}
    (hsize : ∀ op ∈ tr, op.Below4GiB) :
    (∀ pre, pre <+: tr → Accounted (run step (init maxBufferSizeMb gpuMemoryMb) pre)) ↔
      Along step CleanAllocate (init maxBufferSizeMb gpuMemoryMb) tr := by
  have hsmall : ∀ pre : List Op, (∀ op ∈ pre, op.Below4GiB) →
      Small (run step (init maxBufferSizeMb gpuMemoryMb) pre) := by
    intro pre hpre
    exact Along.history (P := fun _ s => Small s) (fun _ _ hb => by cases hb)
      (fun _ _ h hop => h.step hop) (along_of_forall hpre)
  rw [← forall_prefix_iff_along_of
    (I := fun pre => Counted (run step (init maxBufferSizeMb gpuMemoryMb) pre)) rfl tr ?_]
  · exact ⟨fun h pre hpre => (h pre hpre).counted, fun h pre hpre => (h pre hpre).accounted⟩
  · intro pre op hpre _ h
    rw [run_snoc]
    refine h.step_iff (hsmall pre fun op' hop' => hsize op' ?_) op
    exact hpre.subset (List.mem_append_left _ hop')

/-- A buffer that is released and allocated again. -/
def reallocated : List Op :=
  [.allocate "a" (1024 * 1024), .deallocate "a", .allocate "a" (2 * 1024 * 1024)]

theorem reallocated_accounted : Accounted (run step (init 4 0) reallocated) := by
  have hsize : ∀ op ∈ reallocated, op.Below4GiB := by
    intro op hop
    unfold reallocated at hop
    simp only [List.mem_cons, List.not_mem_nil, or_false] at hop
    rcases hop with rfl | rfl | rfl
    · show _ < _
      decide
    · trivial
    · show _ < _
      decide
  refine (accounted_iff 4 0 hsize).mpr ⟨?_, ?_, ?_, trivial⟩ reallocated List.prefix_rfl
  · intro id size heq _
    cases heq
    exact ⟨fun b hb => (by cases hb), by decide⟩
  · intro id size heq
    cases heq
  · intro id size heq _
    cases heq
    have hnone : (run step (init 4 0) (reallocated.take 2)).buffers.get? "a" = none := by
      decide +kernel
    refine ⟨fun b hb => ?_, by decide +kernel⟩
    exact absurd (hnone.symm.trans hb) (by simp)

/-- A buffer of 1 MiB that is allocated over itself. -/
def overwritten : List Op :=
  [.allocate "a" (1024 * 1024), .allocate "a" (1024 * 1024), .deallocate "a"]

/-- One MiB stays counted with no buffer left. -/
theorem overwritten_leaks :
    let s := run step (init 4 0) overwritten
    s.buffers = ∅ ∧ s.usedMemoryMb = 1 ∧ ¬ Accounted s := by
  refine ⟨by decide +kernel, by decide +kernel, fun h => ?_⟩
  have hused := h.drained [] (by decide +kernel)
  replace hused : (run step (init 4 0) overwritten).usedMemoryMb = 0 := hused
  revert hused
  decide +kernel

/-! ## What fits is not refused -/

/-- The call allocates no id that is live. -/
def FreshIds (s : MemoryPool) (op : Op) : Prop :=
  ∀ id size, op = .allocate id size → s.buffers.get? id = none

/-- With fresh ids, whatever fits in the budget is allocated. -/
def NeverRefuses (maxBufferSizeMb gpuMemoryMb : UInt32) : Prop :=
  ∀ tr, Along step FreshIds (init maxBufferSizeMb gpuMemoryMb) tr → ∀ id size,
    (run step (init maxBufferSizeMb gpuMemoryMb) tr).buffers.get? id = none →
    (run step (init maxBufferSizeMb gpuMemoryMb) tr).liveBytes + size.toNat ≤
      maxBufferSizeMb.toNat * 1024 * 1024 →
    ((run step (init maxBufferSizeMb gpuMemoryMb) tr).allocate id size).1 = .ok true

/-- The counter holds the whole MiB of the live buffers up to wrapping. -/
def Congruent (s : MemoryPool) : Prop := s.usedMemoryMb.toNat = s.liveMb % 2 ^ 32

theorem Congruent.step (h : Congruent s) {op : Op} (hop : FreshIds s op) : Congruent (s.step op) := by
  cases op with
  | allocate id size =>
    show Congruent (s.allocate id size).2
    by_cases ha : s.Accepts size
    · have hused := used_allocate id ha
      have hlive := liveMb_allocate id ha
      rw [hop id size rfl, Option.elim_none] at hlive
      unfold Congruent at h ⊢
      omega
    · rw [(allocate_of_not id ha).2]
      exact h
  | deallocate id =>
    show Congruent (s.deallocate id)
    cases hb : s.buffers.get? id with
    | none =>
      rw [deallocate_of_none id hb]
      exact h
    | some b =>
      have hused := used_deallocate hb
      have hlive := liveMb_deallocate hb
      unfold Congruent at h ⊢
      omega
  | getBuffer id => exact h
  | getMemoryStats => exact h
  | clear => rfl

theorem limit_run (maxBufferSizeMb gpuMemoryMb : UInt32) (tr : List Op) :
    (run step (init maxBufferSizeMb gpuMemoryMb) tr).limit =
      maxBufferSizeMb.toNat * 2 ^ 20 % 2 ^ 32 :=
  run_invariant
    (I := fun s : MemoryPool => s.limit = maxBufferSizeMb.toNat * 2 ^ 20 % 2 ^ 32)
    (limit_init maxBufferSizeMb gpuMemoryMb) (fun s hs op => (limit_step s op).trans hs) tr

theorem congruent_run {maxBufferSizeMb gpuMemoryMb : UInt32} {tr : List Op}
    (h : Along step FreshIds (init maxBufferSizeMb gpuMemoryMb) tr) :
    Congruent (run step (init maxBufferSizeMb gpuMemoryMb) tr) := by
  have hinit : Congruent (init maxBufferSizeMb gpuMemoryMb) := rfl
  exact h.history (P := fun _ s => Congruent s) hinit fun _ _ hpre hop => hpre.step hop

/-- **No refusal.** A pool refuses nothing that fits exactly when it is smaller than 4 GiB: the
byte limit of a larger one is truncated. -/
theorem neverRefuses_iff (maxBufferSizeMb gpuMemoryMb : UInt32) :
    NeverRefuses maxBufferSizeMb gpuMemoryMb ↔ maxBufferSizeMb.toNat < 4096 := by
  constructor
  · intro h
    by_contra hlarge
    have hmb := maxBufferSizeMb.toNat_lt
    -- one byte more than the truncated limit
    have hsize : (UInt64.ofNat (maxBufferSizeMb.toNat % 4096 * 2 ^ 20 + 1)).toNat =
        maxBufferSizeMb.toNat % 4096 * 2 ^ 20 + 1 := by
      rw [UInt64.toNat_ofNat']
      omega
    have hfits : (init maxBufferSizeMb gpuMemoryMb).liveBytes +
        (UInt64.ofNat (maxBufferSizeMb.toNat % 4096 * 2 ^ 20 + 1)).toNat ≤
          maxBufferSizeMb.toNat * 1024 * 1024 := by
      have hzero : (init maxBufferSizeMb gpuMemoryMb).liveBytes = 0 := rfl
      omega
    have haccepts := (allocate_eq_true_iff "a").mp (h [] trivial "a" _ rfl hfits)
    have hcheck := haccepts.1
    rw [run_nil, limit_init, hsize] at hcheck
    have hused : (init maxBufferSizeMb gpuMemoryMb).usedMemoryMb.toNat = 0 := rfl
    omega
  · intro hsmall tr htr id size _ hfits
    have hcongr := congruent_run htr
    have hlimit := limit_run maxBufferSizeMb gpuMemoryMb tr
    have hbytes := liveBytes_eq (run step (init maxBufferSizeMb gpuMemoryMb) tr)
    unfold Congruent at hcongr
    refine (allocate_eq_true_iff id).mpr ⟨?_, ?_⟩ <;> omega

/-- A pool of 4 GiB refuses one byte. -/
theorem fourGiB_refuses :
    ((init 4096 0).allocate "a" 1).1 = .ok false ∧ ¬ NeverRefuses 4096 0 := by
  have hfalse : ((init 4096 0).allocate "a" 1).1 = .ok false := by decide +kernel
  refine ⟨hfalse, fun h => ?_⟩
  have htrue := h [] trivial "a" 1 rfl (by decide +kernel)
  rw [run_nil, hfalse] at htrue
  cases htrue

/-! ## What is allocated fits -/

/-- The bytes beyond whole MiB of the live buffers other than `id`. -/
def otherRemainders (s : MemoryPool) (id : String) : ℕ :=
  (s.buffers.erase id).sum fun b => b.bytes.length % 2 ^ 20

/-- An allocation that also passes the check when nothing wraps in it and it counts the bytes
beyond whole MiB of the other buffers. -/
def PassesExactly (s : MemoryPool) (op : Op) : Prop :=
  ∀ id size, op = .allocate id size → s.Accepts size →
    s.usedMemoryMb.toNat * 2 ^ 20 + s.otherRemainders id + size.toNat ≤ s.bufferSize.toNat

/-- The live buffers fit, and the counter covers their whole MiB. -/
structure Within (s : MemoryPool) : Prop where
  fits : s.liveBytes ≤ s.bufferSize.toNat
  covered : s.liveMb ≤ s.usedMemoryMb.toNat

theorem bufferSize_step (s : MemoryPool) (op : Op) : (s.step op).bufferSize = s.bufferSize := by
  cases op with
  | allocate id size =>
    show (s.allocate id size).2.bufferSize = _
    by_cases h : s.Accepts size
    · rw [allocate_of_accepts id h]
    · rw [(allocate_of_not id h).2]
  | deallocate id =>
    show (s.deallocate id).bufferSize = _
    cases hb : s.buffers.get? id with
    | some b => rw [deallocate_of_some id hb]
    | none => rw [deallocate_of_none id hb]
  | getBuffer id => rfl
  | getMemoryStats => rfl
  | clear => rfl

theorem bufferSize_run (maxBufferSizeMb gpuMemoryMb : UInt32) (tr : List Op) :
    (run step (init maxBufferSizeMb gpuMemoryMb) tr).bufferSize.toNat =
      maxBufferSizeMb.toNat * 1024 * 1024 := by
  have hinit : (init maxBufferSizeMb gpuMemoryMb).bufferSize.toNat =
      maxBufferSizeMb.toNat * 1024 * 1024 := by
    have hlt := maxBufferSizeMb.toNat_lt
    unfold init
    rw [UInt64.toNat_mul, UInt64.toNat_mul, UInt32.toNat_toUInt64]
    show maxBufferSizeMb.toNat * 1024 % 2 ^ 64 * 1024 % 2 ^ 64 = _
    omega
  exact run_invariant
    (I := fun s : MemoryPool => s.bufferSize.toNat = maxBufferSizeMb.toNat * 1024 * 1024) hinit
    (fun s hs op => (congrArg UInt64.toNat (bufferSize_step s op)).trans hs) tr

/-- The bytes after an allocation are those of the other buffers and the new ones. -/
theorem liveBytes_allocate (id : String) {size : UInt64} (h : s.Accepts size) :
    (s.allocate id size).2.liveBytes =
      2 ^ 20 * ((s.buffers.erase id).sum fun b => b.bytes.length / 2 ^ 20) +
        s.otherRemainders id + size.toNat := by
  have hother := liveBytes_eq { s with buffers := s.buffers.erase id }
  unfold liveBytes liveMb remainders at hother
  unfold liveBytes otherRemainders
  rw [buffers_allocate id h, Dict.sum_set, hother, length_bytes]

theorem Within.step (h : Within s) {op : Op} (hop : PassesExactly s op)
    (hsize : s.bufferSize.toNat < 2 ^ 52) : Within (s.step op) := by
  cases op with
  | allocate id size =>
    show Within (s.allocate id size).2
    by_cases ha : s.Accepts size
    · have hpass := hop id size rfl ha
      have hused := used_allocate id ha
      have hlive := liveMb_allocate id ha
      have hbytes := liveBytes_allocate id ha
      have hother := Dict.sum_erase (fun b : Buffer => b.bytes.length / 2 ^ 20) s.buffers id
      have hcovered := h.covered
      have hsame : (s.allocate id size).2.bufferSize = s.bufferSize :=
        bufferSize_step s (.allocate id size)
      unfold liveMb at hcovered
      refine ⟨?_, ?_⟩
      · rw [hsame, hbytes]
        omega
      · unfold liveMb at hlive ⊢
        omega
    · rw [(allocate_of_not id ha).2]
      exact h
  | deallocate id =>
    show Within (s.deallocate id)
    cases hb : s.buffers.get? id with
    | none =>
      rw [deallocate_of_none id hb]
      exact h
    | some b =>
      have hused := used_deallocate hb
      have hlive := liveMb_deallocate hb
      have hbytes : (s.deallocate id).liveBytes + b.bytes.length = s.liveBytes :=
        sum_deallocate hb _
      have hsame : (s.deallocate id).bufferSize = s.bufferSize := bufferSize_step s (.deallocate id)
      have hcovered := h.covered
      have hfits := h.fits
      have hlt := s.usedMemoryMb.toNat_lt
      refine ⟨?_, ?_⟩
      · rw [hsame]
        omega
      · omega
  | getBuffer id => exact h
  | getMemoryStats => exact h
  | clear => exact ⟨Nat.zero_le _, Nat.zero_le _⟩

theorem within_run {maxBufferSizeMb gpuMemoryMb : UInt32} {tr : List Op}
    (h : Along step PassesExactly (init maxBufferSizeMb gpuMemoryMb) tr) :
    Within (run step (init maxBufferSizeMb gpuMemoryMb) tr) := by
  refine h.history (P := fun _ s => Within s) ⟨Nat.zero_le _, Nat.zero_le _⟩
    fun pre op hpre hop => hpre.step hop ?_
  have hlt := maxBufferSizeMb.toNat_lt
  have hsize := bufferSize_run maxBufferSizeMb gpuMemoryMb pre
  omega

/-- **The budget.** When every allocation of a history also passes the check with nothing wrapped
and every byte counted, the live buffers stay within the budget. -/
theorem withinBudget_run {maxBufferSizeMb gpuMemoryMb : UInt32} {tr : List Op}
    (h : Along step PassesExactly (init maxBufferSizeMb gpuMemoryMb) tr) :
    ∀ pre, pre <+: tr → (run step (init maxBufferSizeMb gpuMemoryMb) pre).liveBytes ≤
      maxBufferSizeMb.toNat * 1024 * 1024 := by
  rintro pre ⟨post, rfl⟩
  rw [← bufferSize_run maxBufferSizeMb gpuMemoryMb pre]
  exact (within_run (along_append.mp h).1).fits

/-- Two small buffers. -/
def smallBuffers : List Op := [.allocate "a" 10, .allocate "b" 20]

theorem smallBuffers_withinBudget :
    (run step (init 1 0) smallBuffers).liveBytes ≤ (1 : UInt32).toNat * 1024 * 1024 := by
  have hpasses : Along step PassesExactly (init 1 0) smallBuffers := by
    refine ⟨?_, ?_, trivial⟩
    · intro id size heq _
      cases heq
      decide +kernel
    · intro id size heq _
      cases heq
      decide +kernel
  exact withinBudget_run hpasses smallBuffers List.prefix_rfl

/-- Two buffers of one byte less than a MiB each. -/
def almostFull : List Op := [.allocate "a" (1024 * 1024 - 1), .allocate "b" (1024 * 1024 - 1)]

/-- They are both allocated in a pool of one MiB, which counts none. -/
theorem almostFull_overcommits :
    let s := run step (init 1 0) almostFull
    s.usedMemoryMb = 0 ∧ s.liveBytes = 2097150 ∧ ¬ s.liveBytes ≤ (1 : UInt32).toNat * 1024 * 1024 := by
  have hlive : (run step (init 1 0) almostFull).liveBytes = 2097150 := by
    unfold liveBytes
    simp only [length_bytes]
    decide +kernel
  refine ⟨by decide +kernel, hlive, ?_⟩
  rw [hlive]
  decide

/-- With fresh ids the condition of the budget is exact. -/
theorem withinBudget_iff_of_fresh {maxBufferSizeMb gpuMemoryMb : UInt32} {tr : List Op}
    (hfresh : Along step FreshIds (init maxBufferSizeMb gpuMemoryMb) tr) :
    (∀ pre, pre <+: tr → (run step (init maxBufferSizeMb gpuMemoryMb) pre).liveBytes ≤
        maxBufferSizeMb.toNat * 1024 * 1024) ↔
      Along step PassesExactly (init maxBufferSizeMb gpuMemoryMb) tr := by
  refine forall_prefix_iff_along_of (Nat.zero_le _) tr fun pre op hpre halong _ => ?_
  obtain ⟨post, rfl⟩ := hpre
  obtain ⟨hfreshPre, hfreshOp⟩ := along_snoc.mp (along_append.mp hfresh).1
  have hwithin := within_run halong
  have hcongr := congruent_run hfreshPre
  have hsize := bufferSize_run maxBufferSizeMb gpuMemoryMb pre
  have hlt := maxBufferSizeMb.toNat_lt
  rw [run_snoc]
  generalize run step (init maxBufferSizeMb gpuMemoryMb) pre = s at *
  have hvacuous : PassesExactly s op →
      (PassesExactly s op ↔ (s.step op).liveBytes ≤ maxBufferSizeMb.toNat * 1024 * 1024) := by
    refine fun hop => ⟨fun _ => ?_, fun _ => hop⟩
    have hfits := (hwithin.step hop (by omega)).fits
    rwa [bufferSize_step, hsize] at hfits
  cases op with
  | allocate id size =>
    by_cases ha : s.Accepts size
    · have hpass : PassesExactly s (.allocate id size) ↔
          s.usedMemoryMb.toNat * 2 ^ 20 + s.otherRemainders id + size.toNat ≤
            s.bufferSize.toNat := by
        refine ⟨fun hc => hc id size rfl ha, fun hc id' size' heq _ => ?_⟩
        cases heq
        exact hc
      have hother := Dict.sum_erase (fun b : Buffer => b.bytes.length / 2 ^ 20) s.buffers id
      rw [hfreshOp id size rfl, Option.elim_none] at hother
      have hbytes := liveBytes_eq s
      have hfits := hwithin.fits
      have hcovered := hwithin.covered
      rw [hpass]
      show _ ↔ (s.allocate id size).2.liveBytes ≤ _
      rw [liveBytes_allocate id ha]
      unfold Congruent at hcongr
      unfold liveMb at *
      omega
    · refine hvacuous fun id' size' heq ha' => ?_
      cases heq
      exact absurd ha' ha
  | deallocate id => exact hvacuous fun _ _ heq => by cases heq
  | getBuffer id => exact hvacuous fun _ _ heq => by cases heq
  | getMemoryStats => exact hvacuous fun _ _ heq => by cases heq
  | clear => exact hvacuous fun _ _ heq => by cases heq

end MemoryPool

end PyStreamAI
