import Mathlib.Data.Prod.Lex
import Mathlib.Order.Lattice
import PyStreamAI.Py.HeapScan

/-!
# Ties in a heap

A heap is not stable: items that its order leaves equal can be swapped by a pop. With a finer order
`lt'` that decides the ties, `popAgrees` says of a pop that no comparison it makes would come out
differently. Then it is a pop by the finer order as well (`heappop_congr`), and so is a push of an
item that the two orders compare alike (`heappush_congr`).

Items numbered as they arrive are such a case: `stableLt` decides ties by the number. As long as the
pops agree with it, the heap is a stable queue (`Waits.push`, `Waits.pop`).
-/

namespace Py.Heapq

variable {α : Type*} (lt lt' : α → α → Bool)

/-- The comparisons of `siftdown`. -/
def siftdownAgrees (newitem : α) (startpos : ℕ) : ℕ → List α → ℕ → Bool
  | 0, _, _ => true
  | rounds + 1, heap, pos =>
    if startpos < pos then
      match heap[(pos - 1) / 2]? with
      | some parent =>
        lt newitem parent == lt' newitem parent &&
          (!lt newitem parent ||
            siftdownAgrees newitem startpos rounds (heap.set pos parent) ((pos - 1) / 2))
      | none => true
    else true

/-- The comparisons of `siftupHole`: of the two children of the hole, on its way down. -/
def siftupHoleAgrees : ℕ → List α → ℕ → Bool
  | 0, _, _ => true
  | rounds + 1, heap, pos =>
    match heap[2 * pos + 1]?, heap[2 * pos + 2]? with
    | none, _ => true
    | some left, none => siftupHoleAgrees rounds (heap.set pos left) (2 * pos + 1)
    | some left, some right =>
      lt left right == lt' left right &&
        if lt left right then siftupHoleAgrees rounds (heap.set pos left) (2 * pos + 1)
        else siftupHoleAgrees rounds (heap.set pos right) (2 * pos + 2)

/-- The comparisons of `heappop`. -/
def popAgrees (heap : List α) : Bool :=
  match heap.getLast?, heap.dropLast with
  | some last, first :: rest =>
    let down := siftupHole lt (first :: rest).length (first :: rest) 0
    siftupHoleAgrees lt lt' (first :: rest).length (first :: rest) 0 &&
      siftdownAgrees lt lt' last 0 down.2 down.1 down.2
  | _, _ => true

variable {lt lt'}

theorem siftdown_congr {newitem : α} {startpos rounds : ℕ} {heap : List α} {pos : ℕ}
    (h : siftdownAgrees lt lt' newitem startpos rounds heap pos = true) :
    siftdown lt newitem startpos rounds heap pos =
      siftdown lt' newitem startpos rounds heap pos := by
  induction rounds generalizing heap pos with
  | zero => rfl
  | succ rounds ih =>
    rw [siftdownAgrees] at h
    rw [siftdown, siftdown]
    split_ifs at h ⊢ with hstart
    · cases hx : heap[(pos - 1) / 2]? with
      | none => rfl
      | some parent =>
        rw [hx] at h
        dsimp only at h ⊢
        rw [Bool.and_eq_true, beq_iff_eq, Bool.or_eq_true, Bool.not_eq_true'] at h
        rw [← h.1]
        split_ifs with hless
        · exact ih (h.2.resolve_left (by rw [hless]; decide))
        · rfl
    · rfl

theorem siftupHole_congr {rounds : ℕ} {heap : List α} {pos : ℕ}
    (h : siftupHoleAgrees lt lt' rounds heap pos = true) :
    siftupHole lt rounds heap pos = siftupHole lt' rounds heap pos := by
  induction rounds generalizing heap pos with
  | zero => rfl
  | succ rounds ih =>
    rw [siftupHoleAgrees] at h
    rw [siftupHole, siftupHole]
    cases hleft : heap[2 * pos + 1]? with
    | none => rfl
    | some left =>
      cases hright : heap[2 * pos + 2]? with
      | none =>
        rw [hleft, hright] at h
        exact ih h
      | some right =>
        rw [hleft, hright] at h
        dsimp only at h ⊢
        rw [Bool.and_eq_true, beq_iff_eq] at h
        rw [← h.1]
        obtain ⟨-, hrest⟩ := h
        split_ifs at hrest ⊢
        · exact ih hrest
        · exact ih hrest

/-- A pop whose comparisons come out the same is the same pop. -/
theorem heappop_congr {heap : List α} (h : popAgrees lt lt' heap = true) :
    heappop lt heap = heappop lt' heap := by
  unfold popAgrees at h
  unfold heappop
  split at h
  · rename_i last first rest hlast hinit
    rw [Bool.and_eq_true] at h
    rw [hlast, hinit]
    dsimp only
    unfold siftup
    dsimp only
    rw [← siftupHole_congr h.1, siftdown_congr h.2]
  · rename_i hnone
    cases hlast : heap.getLast? with
    | none => rfl
    | some last =>
      cases hinit : heap.dropLast with
      | nil => rfl
      | cons first rest => exact absurd hinit (hnone last first rest hlast)

theorem siftdownAgrees_of_forall {newitem : α} {startpos rounds : ℕ} {heap : List α} {pos : ℕ}
    (h : ∀ x ∈ heap, lt newitem x = lt' newitem x) :
    siftdownAgrees lt lt' newitem startpos rounds heap pos = true := by
  induction rounds generalizing heap pos with
  | zero => rfl
  | succ rounds ih =>
    rw [siftdownAgrees]
    split_ifs
    · cases hx : heap[(pos - 1) / 2]? with
      | none => rfl
      | some parent =>
        have hparent := List.mem_of_getElem? hx
        have hset : ∀ x ∈ heap.set pos parent, lt newitem x = lt' newitem x := by
          intro x hmem
          rcases List.mem_or_eq_of_mem_set hmem with hmem | rfl
          · exact h x hmem
          · exact h x hparent
        dsimp only
        rw [h parent hparent, beq_self_eq_true, ih hset, Bool.or_true, Bool.and_true]
    · rfl

/-- A push of an item that both orders compare alike is the same push. -/
theorem heappush_congr {heap : List α} {item : α}
    (h : ∀ x ∈ item :: heap, lt item x = lt' item x) :
    heappush lt heap item = heappush lt' heap item := by
  unfold heappush
  refine siftdown_congr (siftdownAgrees_of_forall fun x hx => h x ?_)
  exact (List.perm_append_singleton item heap).mem_iff.mp hx

/-! ## Numbered items -/

section Numbered

/-- The order of numbered items that ignores the number. -/
def unstableLt (lt : α → α → Bool) (p q : α × ℕ) : Bool := lt p.1 q.1

/-- The order of numbered items that decides ties by the number. -/
def stableLt (lt : α → α → Bool) (p q : α × ℕ) : Bool :=
  lt p.1 q.1 || (!lt q.1 p.1 && decide (p.2 < q.2))

variable {β : Type*} [LinearOrder β] {key : α → β} {lt : α → α → Bool}

/-- What `stableLt` orders by. -/
def stableKey (key : α → β) (p : α × ℕ) : β ×ₗ ℕ := toLex (key p.1, p.2)

variable (hlt : ∀ a b, lt a b = true ↔ key a < key b)
include hlt

theorem stableLt_iff (p q : α × ℕ) :
    stableLt lt p q = true ↔ stableKey key p < stableKey key q := by
  have hnot : lt q.1 p.1 = false ↔ key p.1 ≤ key q.1 := by
    rw [← Bool.not_eq_true, hlt, not_lt]
  unfold stableLt stableKey
  rw [Prod.Lex.toLex_lt_toLex, Bool.or_eq_true, Bool.and_eq_true, Bool.not_eq_true', hnot, hlt,
    decide_eq_true_iff]
  constructor
  · rintro (hless | ⟨hle, hnum⟩)
    · exact Or.inl hless
    · exact hle.lt_or_eq.imp_right fun heq => ⟨heq, hnum⟩
  · rintro (hless | ⟨heq, hnum⟩)
    · exact Or.inl hless
    · exact Or.inr ⟨le_of_eq heq, hnum⟩

omit hlt in
/-- The queue is a heap of the items that wait, listed in the order of their numbers, which are all
below the next one. -/
structure Waits (key : α → β) (queue waiting : List (α × ℕ)) (next : ℕ) : Prop where
  heap : IsHeap (stableKey key) queue
  perm : queue.Perm waiting
  sorted : waiting.Pairwise fun p q => p.2 < q.2
  below : ∀ p ∈ waiting, p.2 < next

omit hlt in
theorem waits_nil (next : ℕ) : Waits key ([] : List (α × ℕ)) [] next :=
  ⟨isHeap_nil, List.Perm.refl _, List.Pairwise.nil, fun _ hp => absurd hp List.not_mem_nil⟩

variable {queue waiting : List (α × ℕ)} {next : ℕ}

/-- An item with the next number comes last among its equals under both orders. -/
theorem Waits.push (h : Waits key queue waiting next) (a : α) :
    Waits key (heappush (unstableLt lt) queue (a, next)) (waiting ++ [(a, next)]) (next + 1) := by
  have hagree : ∀ x ∈ (a, next) :: queue, unstableLt lt (a, next) x = stableLt lt (a, next) x := by
    intro x hx
    have hle : x.2 ≤ next := by
      rcases List.mem_cons.mp hx with rfl | hx
      · exact le_refl _
      · exact le_of_lt (h.below x (h.perm.mem_iff.mp hx))
    unfold unstableLt stableLt
    rw [decide_eq_false (not_lt.mpr hle), Bool.and_false, Bool.or_false]
  refine ⟨?_, ?_, ?_, fun p hp => ?_⟩
  · rw [heappush_congr hagree]
    exact h.heap.heappush (stableLt_iff hlt) (a, next)
  · exact (heappush_perm _ _ _).trans
      ((h.perm.cons _).trans (List.perm_append_singleton _ _).symm)
  · refine List.pairwise_append.mpr ⟨h.sorted, List.pairwise_singleton _ _, fun p hp q hq => ?_⟩
    rw [List.mem_singleton.mp hq]
    exact h.below p hp
  · rcases List.mem_append.mp hp with hp | hp
    · exact Nat.lt_succ_of_lt (h.below p hp)
    · rw [List.mem_singleton.mp hp]
      exact Nat.lt_succ_self next

/-- A pop that agrees takes out, of the items of its key, the one that waits first. -/
theorem Waits.pop (h : Waits key queue waiting next)
    (hagree : popAgrees (unstableLt lt) (stableLt lt) queue = true) {p : α × ℕ}
    {rest : List (α × ℕ)} (hpop : heappop (unstableLt lt) queue = some (p, rest)) :
    ∃ before after, waiting = before ++ p :: after ∧ Waits key rest (before ++ after) next ∧
      ∀ q ∈ before, key q.1 ≠ key p.1 := by
  rw [heappop_congr hagree] at hpop
  have hperm := heappop_perm _ hpop
  obtain ⟨before, after, hsplit⟩ :=
    List.append_of_mem (h.perm.mem_iff.mp (hperm.mem_iff.mpr List.mem_cons_self))
  have hkeep : (before ++ after).Sublist waiting := by
    rw [hsplit]
    exact (List.Sublist.refl before).append (List.sublist_cons_self p after)
  refine ⟨before, after, hsplit, ⟨h.heap.heappop (stableLt_iff hlt) hpop, ?_,
    h.sorted.sublist hkeep, fun q hq => h.below q (hkeep.subset hq)⟩, fun q hq hkey => ?_⟩
  · have hcons := (hperm.symm.trans h.perm).trans (hsplit ▸ List.perm_middle)
    exact List.Perm.cons_inv hcons
  · -- an equal with a smaller number would be less than the least item
    have hmem : q ∈ waiting := hsplit ▸ List.mem_append_left _ hq
    have hleast := h.heap.heappop_le hpop q (h.perm.mem_iff.mpr hmem)
    have hsorted := h.sorted
    rw [hsplit, List.pairwise_append] at hsorted
    have hnum : q.2 < p.2 := hsorted.2.2 q hq p List.mem_cons_self
    refine absurd hleast (not_le.mpr ?_)
    unfold stableKey
    rw [Prod.Lex.toLex_lt_toLex]
    exact Or.inr ⟨hkey, hnum⟩

end Numbered

end Py.Heapq
