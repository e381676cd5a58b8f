import Mathlib.Order.Lattice
import PyStreamAI.Py.Heapq

/-!
# The order of a heap

With `lt` the order of a key, `heappush` and `heappop` keep a heap a heap, and a pop returns an item
of least key. Both loops move a hole: `HeapBut` is a heap except at the hole, whose children are not
below its parent either.
-/

namespace Py.Heapq

variable {α β : Type*} [LinearOrder β] (key : α → β)

/-- The item at `p` does not come after the one at `c`. -/
def InOrder (heap : List α) (p c : ℕ) : Prop :=
  ∀ x y, heap[p]? = some x → heap[c]? = some y → key x ≤ key y

/-- Every item comes after its parent. -/
def IsHeap (heap : List α) : Prop := ∀ i, 0 < i → InOrder key heap ((i - 1) / 2) i

/-- A heap with a hole at `pos`. -/
structure HeapBut (heap : List α) (pos : ℕ) : Prop where
  away : ∀ i, 0 < i → i ≠ pos → (i - 1) / 2 ≠ pos → InOrder key heap ((i - 1) / 2) i
  across : 0 < pos → ∀ i, 0 < i → (i - 1) / 2 = pos → InOrder key heap ((pos - 1) / 2) i

variable {key} {heap : List α} {pos : ℕ}

theorem inOrder_set_of_ne {p c : ℕ} {x : α} (hp : pos ≠ p) (hc : pos ≠ c) :
    InOrder key (heap.set pos x) p c ↔ InOrder key heap p c := by
  unfold InOrder
  rw [List.getElem?_set_ne hp, List.getElem?_set_ne hc]

theorem inOrder_set_left {c : ℕ} {x : α} (hpos : pos < heap.length) (hc : pos ≠ c) :
    InOrder key (heap.set pos x) pos c ↔ ∀ y, heap[c]? = some y → key x ≤ key y := by
  unfold InOrder
  rw [List.getElem?_set_self hpos, List.getElem?_set_ne hc]
  exact ⟨fun h y hy => h x y rfl hy, fun h x' y hx hy => Option.some.inj hx ▸ h y hy⟩

theorem inOrder_set_right {p : ℕ} {x : α} (hpos : pos < heap.length) (hp : pos ≠ p) :
    InOrder key (heap.set pos x) p pos ↔ ∀ y, heap[p]? = some y → key y ≤ key x := by
  unfold InOrder
  rw [List.getElem?_set_self hpos, List.getElem?_set_ne hp]
  exact ⟨fun h y hy => h y x hy rfl, fun h y x' hy hx => Option.some.inj hx ▸ h y hy⟩

theorem isHeap_nil : IsHeap key ([] : List α) := fun _ _ _ _ _ hy => by cases hy

/-- Taking an item out leaves a hole. -/
theorem IsHeap.heapBut (h : IsHeap key heap) : HeapBut key heap 0 :=
  ⟨fun i hi _ _ => h i hi, fun h0 => absurd h0 (Nat.lt_irrefl 0)⟩

/-- An item that comes after the parent of the hole and before its children fills it. -/
theorem HeapBut.fill (h : HeapBut key heap pos) (hpos : pos < heap.length) {item : α}
    (habove : 0 < pos → ∀ y, heap[(pos - 1) / 2]? = some y → key y ≤ key item)
    (hbelow : ∀ i, 0 < i → (i - 1) / 2 = pos → ∀ y, heap[i]? = some y → key item ≤ key y) :
    IsHeap key (heap.set pos item) := by
  intro i hi
  by_cases hip : i = pos
  · subst hip
    exact (inOrder_set_right hpos (by omega)).mpr (habove hi)
  · by_cases hparent : (i - 1) / 2 = pos
    · rw [hparent]
      exact (inOrder_set_left hpos (Ne.symm hip)).mpr (hbelow i hi hparent)
    · exact (inOrder_set_of_ne (Ne.symm hparent) (Ne.symm hip)).mpr (h.away i hi hip hparent)

/-- The parent of the hole moves down into it. -/
theorem HeapBut.moveDown (h : HeapBut key heap pos) (hpos : pos < heap.length) (h0 : 0 < pos)
    {x : α} (hx : heap[(pos - 1) / 2]? = some x) :
    HeapBut key (heap.set pos x) ((pos - 1) / 2) := by
  have hup : (pos - 1) / 2 < pos := by omega
  refine ⟨fun i hi hip hparent => ?_, fun hq i hi hparent => ?_⟩
  · by_cases hchild : (i - 1) / 2 = pos
    · rw [hchild]
      exact (inOrder_set_left hpos (by omega)).mpr fun y hy => h.across h0 i hi hchild x y hx hy
    · by_cases hself : i = pos
      · exact absurd (congrArg (fun j => (j - 1) / 2) hself) hparent
      · exact (inOrder_set_of_ne (Ne.symm hchild) (Ne.symm hself)).mpr (h.away i hi hself hchild)
  · -- the new hole's parent comes before what was in it, so before all it has for children now
    have habove := h.away ((pos - 1) / 2) hq (by omega) (by omega)
    by_cases hself : i = pos
    · subst hself
      exact (inOrder_set_right hpos (by omega)).mpr fun y hy => habove y x hy hx
    · refine (inOrder_set_of_ne (by omega) (Ne.symm hself)).mpr fun y z hy hz => ?_
      have hsibling := h.away i hi hself (by omega)
      rw [hparent] at hsibling
      exact (habove y x hy hx).trans (hsibling x z hx hz)

/-- The smaller child of the hole moves up into it. -/
theorem HeapBut.moveUp (h : HeapBut key heap pos) (hpos : pos < heap.length) {c : ℕ} (hc : 0 < c)
    (hparent : (c - 1) / 2 = pos) {x : α} (hx : heap[c]? = some x)
    (hleast : ∀ i, 0 < i → (i - 1) / 2 = pos → ∀ y, heap[i]? = some y → key x ≤ key y) :
    HeapBut key (heap.set pos x) c := by
  refine ⟨fun i hi hic hparent' => ?_, fun _ i hi hchild => ?_⟩
  · by_cases hself : i = pos
    · subst hself
      exact (inOrder_set_right hpos (by omega)).mpr fun y hy => h.across hi c hc hparent y x hy hx
    · by_cases hsibling : (i - 1) / 2 = pos
      · rw [hsibling]
        exact (inOrder_set_left hpos (Ne.symm hself)).mpr (hleast i hi hsibling)
      · exact (inOrder_set_of_ne (Ne.symm hsibling) (Ne.symm hself)).mpr
          (h.away i hi hself hsibling)
  · rw [hparent]
    refine (inOrder_set_left hpos (by omega)).mpr fun y hy => ?_
    have hbelow := h.away i hi (by omega) (by omega)
    rw [hchild] at hbelow
    exact hbelow x y hx hy

/-- The hole is a leaf. -/
structure HeapBut.AtLeaf (key : α → β) (heap : List α) (pos : ℕ) : Prop where
  heapBut : HeapBut key heap pos
  lt_length : pos < heap.length
  leaf : ∀ i, 0 < i → (i - 1) / 2 = pos → heap[i]? = none

omit [LinearOrder β] in
/-- A hole has the two children that the loop looks at. -/
theorem forall_children {P : ℕ → Prop} :
    (∀ i, 0 < i → (i - 1) / 2 = pos → P i) ↔ P (2 * pos + 1) ∧ P (2 * pos + 2) := by
  constructor
  · intro h
    exact ⟨h _ (by omega) (by omega), h _ (by omega) (by omega)⟩
  · rintro ⟨hleft, hright⟩ i hi hparent
    obtain rfl | rfl : i = 2 * pos + 1 ∨ i = 2 * pos + 2 := by omega
    · exact hleft
    · exact hright

/-! ## The loops -/

variable {lt : α → α → Bool} (hlt : ∀ a b, lt a b = true ↔ key a < key b)
include hlt

theorem HeapBut.siftdown (h : HeapBut key heap pos) {rounds : ℕ} (hrounds : pos ≤ rounds)
    (hpos : pos < heap.length) {item : α}
    (hbelow : ∀ i, 0 < i → (i - 1) / 2 = pos → ∀ y, heap[i]? = some y → key item ≤ key y) :
    IsHeap key (siftdown lt item 0 rounds heap pos) := by
  induction rounds generalizing heap pos with
  | zero => exact h.fill hpos (fun h0 => absurd h0 (by omega)) hbelow
  | succ rounds ih =>
    rw [Heapq.siftdown]
    split_ifs with h0
    · cases hx : heap[(pos - 1) / 2]? with
      | none =>
        exact h.fill hpos (fun _ y hy => by rw [hx] at hy; cases hy) hbelow
      | some parent =>
        dsimp only
        split_ifs with hless
        · have hitem : key item < key parent := (hlt item parent).mp hless
          refine ih (h.moveDown hpos h0 hx) (by omega) (by rw [List.length_set]; omega) ?_
          intro i hi hparent y hy
          by_cases hself : pos = i
          · subst hself
            rw [List.getElem?_set_self hpos] at hy
            exact Option.some.inj hy ▸ hitem.le
          · rw [List.getElem?_set_ne hself] at hy
            have hsibling := h.away i hi (Ne.symm hself) (by omega)
            rw [hparent] at hsibling
            exact hitem.le.trans (hsibling parent y hx hy)
        · refine h.fill hpos (fun _ y hy => ?_) hbelow
          rw [hx] at hy
          obtain rfl := Option.some.inj hy
          exact not_lt.mp fun hless' => hless ((hlt _ _).mpr hless')
    · exact h.fill hpos (fun h0' => absurd h0' h0) hbelow

/-- The hole comes to a leaf of a heap with a hole. -/
theorem HeapBut.siftupHole (h : HeapBut key heap pos) {rounds : ℕ}
    (hrounds : heap.length ≤ rounds + pos) (hpos : pos < heap.length) :
    HeapBut.AtLeaf key (siftupHole lt rounds heap pos).1 (siftupHole lt rounds heap pos).2 := by
  induction rounds generalizing heap pos with
  | zero => exact absurd hpos (by omega)
  | succ rounds ih =>
    have hmove : ∀ {c : ℕ} {x : α}, 0 < c → (c - 1) / 2 = pos → heap[c]? = some x →
        (∀ i, 0 < i → (i - 1) / 2 = pos → ∀ y, heap[i]? = some y → key x ≤ key y) →
        HeapBut.AtLeaf key (Heapq.siftupHole lt rounds (heap.set pos x) c).1
          (Heapq.siftupHole lt rounds (heap.set pos x) c).2 := by
      intro c x hc hparent hx hleast
      have hlen := (List.getElem?_eq_some_iff.mp hx).1
      refine ih (h.moveUp hpos hc hparent hx hleast) ?_ ?_ <;> rw [List.length_set] <;> omega
    rw [Heapq.siftupHole]
    split
    · rename_i hleft
      refine ⟨h, hpos, forall_children.mpr ⟨hleft, ?_⟩⟩
      rw [List.getElem?_eq_none_iff] at hleft ⊢
      show heap.length ≤ 2 * pos + 2
      omega
    · rename_i left hleft hright
      refine hmove (by omega) (by omega) hleft
        (forall_children.mpr ⟨fun y hy => ?_, fun y hy => ?_⟩)
      · rw [hleft] at hy
        exact Option.some.inj hy ▸ le_refl _
      · rw [hright] at hy
        cases hy
    · rename_i left right hleft hright
      split_ifs with hless
      · refine hmove (by omega) (by omega) hleft
          (forall_children.mpr ⟨fun y hy => ?_, fun y hy => ?_⟩)
        · rw [hleft] at hy
          exact Option.some.inj hy ▸ le_refl _
        · rw [hright] at hy
          exact Option.some.inj hy ▸ ((hlt _ _).mp hless).le
      · refine hmove (by omega) (by omega) hright
          (forall_children.mpr ⟨fun y hy => ?_, fun y hy => ?_⟩)
        · rw [hleft] at hy
          obtain rfl := Option.some.inj hy
          exact not_lt.mp fun hless' => hless ((hlt _ _).mpr hless')
        · rw [hright] at hy
          exact Option.some.inj hy ▸ le_refl _

/-! ## Pushing and popping -/

theorem IsHeap.heappush (h : IsHeap key heap) (item : α) : IsHeap key (heappush lt heap item) := by
  have hbut : HeapBut key (heap ++ [item]) heap.length := by
    refine ⟨fun i hi hne _ x y hx hy => ?_, fun _ i hi hparent x y _ hy => ?_⟩
    · have hlen := (List.getElem?_eq_some_iff.mp hy).1
      rw [List.length_append, List.length_singleton] at hlen
      rw [List.getElem?_append_left (by omega)] at hx hy
      exact h i hi x y hx hy
    · have hlen := (List.getElem?_eq_some_iff.mp hy).1
      rw [List.length_append, List.length_singleton] at hlen
      omega
  refine hbut.siftdown hlt (Nat.le_refl _) (by simp) fun i hi hparent y hy => ?_
  have hlen := (List.getElem?_eq_some_iff.mp hy).1
  rw [List.length_append, List.length_singleton] at hlen
  omega

theorem IsHeap.heappop (h : IsHeap key heap) {item : α} {rest : List α}
    (hpop : heappop lt heap = some (item, rest)) : IsHeap key rest := by
  cases heap using List.reverseRecOn with
  | nil => cases hpop
  | append_singleton init last =>
    unfold Heapq.heappop at hpop
    rw [List.getLast?_concat, List.dropLast_concat] at hpop
    cases init with
    | nil =>
      obtain ⟨-, rfl⟩ := Prod.mk.inj (Option.some.inj hpop)
      exact isHeap_nil
    | cons first init =>
      obtain ⟨-, rfl⟩ := Prod.mk.inj (Option.some.inj hpop)
      have hinit : IsHeap key (first :: init) := by
        intro i hi x y hx hy
        have hlen := (List.getElem?_eq_some_iff.mp hy).1
        refine h i hi x y ?_ ?_ <;> rwa [List.getElem?_append_left (by omega)]
      have hleaf := hinit.heapBut.siftupHole hlt (Nat.le_refl _) (Nat.succ_pos _)
      refine hleaf.heapBut.siftdown hlt (Nat.le_refl _) hleaf.lt_length fun i hi hparent y hy => ?_
      rw [hleaf.leaf i hi hparent] at hy
      cases hy

omit hlt in
theorem IsHeap.head_le (h : IsHeap key heap) {first : α} (hfirst : heap[0]? = some first) (i : ℕ) :
    ∀ x, heap[i]? = some x → key first ≤ key x := by
  induction i using Nat.strongRecOn with
  | ind i ih =>
    intro x hx
    rcases Nat.eq_zero_or_pos i with rfl | hi
    · rw [hfirst] at hx
      exact Option.some.inj hx ▸ le_refl _
    · have hlen := (List.getElem?_eq_some_iff.mp hx).1
      have hparent : heap[(i - 1) / 2]? = some heap[(i - 1) / 2] :=
        List.getElem?_eq_getElem (by omega)
      exact (ih ((i - 1) / 2) (by omega) _ hparent).trans (h i hi _ x hparent hx)

omit hlt in
theorem IsHeap.heappop_le (h : IsHeap key heap) {item : α} {rest : List α}
    (hpop : Heapq.heappop lt heap = some (item, rest)) : ∀ x ∈ heap, key item ≤ key x := by
  have hfirst : heap[0]? = some item :=
    List.head?_eq_getElem?.symm.trans (head?_of_heappop lt hpop)
  intro x hx
  obtain ⟨i, hi⟩ := List.mem_iff_getElem?.mp hx
  exact h.head_le hfirst i x hi

end Py.Heapq
