import Mathlib.Data.List.Basic
import Mathlib.Data.List.Induction

/-!
# `heapq`

The array-based binary heap of the standard library, on lists. `lt` is the order of the items,
`siftdown` and `siftup` are the two private loops; each is given the number of rounds it can make
at most, so that it is structural. The loops move a hole and write the item once at the end, so
pushing and popping lose and invent nothing (`heappush_perm`, `heappop_perm`).
-/

namespace Py.Heapq

variable {α : Type*} (lt : α → α → Bool)

/-- `_siftdown(heap, startpos, pos)` for the item `newitem` taken out of `pos`: parents that are
greater move down. -/
def siftdown (newitem : α) (startpos : ℕ) : ℕ → List α → ℕ → List α
  | 0, heap, pos => heap.set pos newitem
  | rounds + 1, heap, pos =>
    if startpos < pos then
      match heap[(pos - 1) / 2]? with
      | some parent =>
        if lt newitem parent then
          siftdown newitem startpos rounds (heap.set pos parent) ((pos - 1) / 2)
        else heap.set pos newitem
      | none => heap.set pos newitem
    else heap.set pos newitem

/-- The loop of `_siftup(heap, pos)`: the smaller child moves up until the hole is a leaf. Returns
the heap and the hole. -/
def siftupHole : ℕ → List α → ℕ → List α × ℕ
  | 0, heap, pos => (heap, pos)
  | rounds + 1, heap, pos =>
    match heap[2 * pos + 1]?, heap[2 * pos + 2]? with
    | none, _ => (heap, pos)
    | some left, none => siftupHole rounds (heap.set pos left) (2 * pos + 1)
    | some left, some right =>
      if lt left right then siftupHole rounds (heap.set pos left) (2 * pos + 1)
      else siftupHole rounds (heap.set pos right) (2 * pos + 2)

/-- `_siftup(heap, pos)` for the item `newitem` taken out of `pos`. -/
def siftup (newitem : α) (heap : List α) (pos : ℕ) : List α :=
  let (heap, hole) := siftupHole lt heap.length heap pos
  siftdown lt newitem pos hole heap hole

/-- `heappush(heap, item)`. -/
def heappush (heap : List α) (item : α) : List α :=
  siftdown lt item 0 heap.length (heap ++ [item]) heap.length

/-- `heappop(heap)`, `none` for the empty heap. -/
def heappop (heap : List α) : Option (α × List α) :=
  match heap.getLast?, heap.dropLast with
  | none, _ => none
  | some last, [] => some (last, [])
  | some last, first :: rest => some (first, siftup lt last (first :: rest) 0)

/-! ## What a heap holds -/

/-- Moving the item at `j` into the hole at `i` moves the hole to `j`. -/
theorem set_move_perm {heap : List α} {i j : ℕ} {x newitem : α} (hx : heap[j]? = some x)
    (hne : j ≠ i) (hi : i < heap.length) :
    ((heap.set i x).set j newitem).Perm (heap.set i newitem) := by
  obtain ⟨hj, hxj⟩ := List.getElem?_eq_some_iff.mp hx
  have hi' : i < (heap.set i newitem).length := by rwa [List.length_set]
  have hj' : j < (heap.set i newitem).length := by rwa [List.length_set]
  have hswap := List.set_set_perm hi' hj'
  rw [List.getElem_set_self, List.getElem_set_ne hne.symm, hxj, List.set_set] at hswap
  exact hswap

theorem siftdown_perm (newitem : α) (startpos rounds : ℕ) {heap : List α} {pos : ℕ}
    (hpos : pos < heap.length) :
    (siftdown lt newitem startpos rounds heap pos).Perm (heap.set pos newitem) := by
  induction rounds generalizing heap pos with
  | zero => exact List.Perm.refl _
  | succ rounds ih =>
    rw [siftdown]
    split_ifs with hstart
    · have hparent : (pos - 1) / 2 < pos := by omega
      cases hx : heap[(pos - 1) / 2]? with
      | none => exact List.Perm.refl _
      | some parent =>
        dsimp only
        split_ifs
        · have hlen : (pos - 1) / 2 < (heap.set pos parent).length := by
            rw [List.length_set]
            omega
          exact (ih hlen).trans (set_move_perm hx (Nat.ne_of_lt hparent) hpos)
        · exact List.Perm.refl _
    · exact List.Perm.refl _

/-- Moving the hole down to a leaf keeps what the heap holds besides it. -/
theorem siftupHole_perm (newitem : α) (rounds : ℕ) {heap : List α} {pos : ℕ}
    (hpos : pos < heap.length) :
    (siftupHole lt rounds heap pos).2 < (siftupHole lt rounds heap pos).1.length ∧
      ((siftupHole lt rounds heap pos).1.set (siftupHole lt rounds heap pos).2 newitem).Perm
        (heap.set pos newitem) := by
  induction rounds generalizing heap pos with
  | zero => exact ⟨hpos, List.Perm.refl _⟩
  | succ rounds ih =>
    have hmove : ∀ {j : ℕ} {x : α}, heap[j]? = some x → pos < j →
        (siftupHole lt rounds (heap.set pos x) j).2 <
          (siftupHole lt rounds (heap.set pos x) j).1.length ∧
        ((siftupHole lt rounds (heap.set pos x) j).1.set
          (siftupHole lt rounds (heap.set pos x) j).2 newitem).Perm (heap.set pos newitem) := by
      intro j x hx hj
      have hlen : j < (heap.set pos x).length := by
        rw [List.length_set]
        exact (List.getElem?_eq_some_iff.mp hx).1
      exact ⟨(ih hlen).1, (ih hlen).2.trans (set_move_perm hx (Nat.ne_of_gt hj) hpos)⟩
    rw [siftupHole]
    split
    · exact ⟨hpos, List.Perm.refl _⟩
    · rename_i left hleft _
      exact hmove hleft (by omega)
    · rename_i left right hleft hright
      split_ifs
      · exact hmove hleft (by omega)
      · exact hmove hright (by omega)

theorem siftup_perm (newitem : α) {heap : List α} {pos : ℕ} (hpos : pos < heap.length) :
    (siftup lt newitem heap pos).Perm (heap.set pos newitem) := by
  obtain ⟨hhole, hperm⟩ := siftupHole_perm lt newitem heap.length hpos
  exact (siftdown_perm lt newitem pos _ hhole).trans hperm

theorem heappush_perm (heap : List α) (item : α) : (heappush lt heap item).Perm (item :: heap) := by
  have hlen : heap.length < (heap ++ [item]).length := by simp
  have hset : (heap ++ [item]).set heap.length item = heap ++ [item] := by simp
  have hsift := siftdown_perm lt item 0 heap.length hlen
  rw [hset] at hsift
  exact hsift.trans (List.perm_append_singleton item heap)

theorem heappop_eq_none {heap : List α} : heappop lt heap = none ↔ heap = [] := by
  cases heap using List.reverseRecOn with
  | nil => exact iff_of_true rfl rfl
  | append_singleton init last =>
    unfold heappop
    rw [List.getLast?_concat, List.dropLast_concat]
    cases init <;> simp

theorem ne_nil_of_heappop {heap rest : List α} {item : α}
    (h : heappop lt heap = some (item, rest)) : heap ≠ [] := by
  intro hempty
  rw [(heappop_eq_none lt).mpr hempty] at h
  cases h

theorem head?_of_heappop {heap rest : List α} {item : α}
    (h : heappop lt heap = some (item, rest)) : heap.head? = some item := by
  cases heap using List.reverseRecOn with
  | nil => cases h
  | append_singleton init last =>
    unfold heappop at h
    rw [List.getLast?_concat, List.dropLast_concat] at h
    cases init with
    | nil => exact congrArg (fun p => some p.1) (Option.some.inj h)
    | cons first init => exact congrArg (fun p => some p.1) (Option.some.inj h)

theorem heappop_perm {heap rest : List α} {item : α} (h : heappop lt heap = some (item, rest)) :
    heap.Perm (item :: rest) := by
  cases heap using List.reverseRecOn with
  | nil => cases h
  | append_singleton init last =>
    unfold heappop at h
    rw [List.getLast?_concat, List.dropLast_concat] at h
    cases init with
    | nil =>
      obtain ⟨rfl, rfl⟩ := Prod.mk.inj (Option.some.inj h)
      exact List.Perm.refl _
    | cons first init =>
      obtain ⟨rfl, rfl⟩ := Prod.mk.inj (Option.some.inj h)
      -- the last item takes the place of the first one
      have hsift := siftup_perm lt last (show 0 < (first :: init).length from Nat.succ_pos _)
      exact ((List.perm_append_singleton last init).trans hsift.symm).cons first

end Py.Heapq
