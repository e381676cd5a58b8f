import Mathlib.Data.List.Nodup
import PyStreamAI.Py.HeapOrder

/-!
# Popping until an item is alive

`popLive` pops a heap until it gets an item that passes a test of the round. When an item that
failed fails in every later round, what it returns is least among all that pass in its last round
(`IsHeap.popLive_cases`). What it can return, and in which round, can be told from the keys alone up to
the order of equal keys (`Reaches`), and exactly where all keys are different (`Reaches.unique`). The
operations of a heap commute with a map that keeps the order (`heappush_map`, `heappop_map`).
-/

namespace Py.Heapq

variable {α : Type*} (lt : α → α → Bool)

/-- Pop until an item is not `dead`, in at most `rounds` rounds counted from `i`. -/
def popLive (dead : ℕ → α → Bool) (i : ℕ) : ℕ → List α → Option α × List α
  | 0, heap => (none, heap)
  | rounds + 1, heap =>
    match heappop lt heap with
    | none => (none, heap)
    | some (item, rest) =>
      if dead i item then popLive dead (i + 1) rounds rest else (some item, rest)

theorem popLive_succ_of_pop {heap rest : List α} {item : α}
    (h : heappop lt heap = some (item, rest)) (dead : ℕ → α → Bool) (i rounds : ℕ) :
    popLive lt dead i (rounds + 1) heap =
      if dead i item then popLive lt dead (i + 1) rounds rest else (some item, rest) := by
  rw [popLive, h]

/-- What `popLive` returns passed the test of some round. -/
theorem live_of_popLive {dead : ℕ → α → Bool} {i rounds : ℕ} {heap : List α} {a : α}
    (h : (popLive lt dead i rounds heap).1 = some a) : ∃ j, dead j a = false := by
  induction rounds generalizing i heap with
  | zero => cases h
  | succ rounds ih =>
    cases hpop : heappop lt heap with
    | none =>
      rw [popLive, hpop] at h
      cases h
    | some popped =>
      rw [popLive_succ_of_pop lt hpop] at h
      split_ifs at h with hdead
      · exact ih h
      · obtain rfl := Option.some.inj h
        exact ⟨i, Bool.eq_false_of_not_eq_true hdead⟩

/-! ## Heaps -/

section Order

variable {β : Type*} [LinearOrder β] {key : α → β} {lt : α → α → Bool}
  (hlt : ∀ a b, lt a b = true ↔ key a < key b)
include hlt

/-- What a scan leaves is a heap. -/
theorem IsHeap.popLive_snd (dead : ℕ → α → Bool) (i rounds : ℕ) {heap : List α}
    (h : IsHeap key heap) : IsHeap key (popLive lt dead i rounds heap).2 := by
  induction rounds generalizing i heap with
  | zero => exact h
  | succ rounds ih =>
    cases hpop : Heapq.heappop lt heap with
    | none =>
      rw [popLive, hpop]
      exact h
    | some popped =>
      have hrest := h.heappop hlt hpop
      rw [popLive_succ_of_pop lt hpop]
      split_ifs
      · exact ih (i + 1) hrest
      · exact hrest

/-- The items `dropped` are in order of their keys, and each is dead in its round, counted from
`i`. -/
structure Passes (key : α → β) (dead : ℕ → α → Bool) (i : ℕ) (dropped : List α) : Prop where
  sorted : dropped.Pairwise fun b c => key b ≤ key c
  dead_at : ∀ before d after, dropped = before ++ d :: after → dead (i + before.length) d = true

section Passes

omit hlt

variable {dead : ℕ → α → Bool} {heap dropped : List α}

theorem passes_nil (i : ℕ) : Passes key dead i [] :=
  ⟨List.Pairwise.nil, fun before d after heq => absurd heq (by simp)⟩

theorem Passes.cons {i : ℕ} {item : α} (h : Passes key dead (i + 1) dropped)
    (hitem : ∀ b ∈ dropped, key item ≤ key b) (hdead : dead i item = true) :
    Passes key dead i (item :: dropped) where
  sorted := List.pairwise_cons.mpr ⟨hitem, h.sorted⟩
  dead_at before d after heq := by
    cases before with
    | nil =>
      obtain ⟨rfl, -⟩ := List.cons.inj heq
      exact hdead
    | cons b before =>
      have hd := h.dead_at before d after (List.cons.inj heq).2
      rw [List.length_cons, show i + (before.length + 1) = i + 1 + before.length by omega]
      exact hd

variable (hdead : ∀ i j a, i ≤ j → dead i a = true → dead j a = true)
include hdead

/-- What was passed is dead from the last of these rounds on. -/
theorem Passes.dead_of_mem {i j : ℕ} (h : Passes key dead i dropped)
    (hj : i + dropped.length ≤ j + 1) {d : α} (hd : d ∈ dropped) : dead j d = true := by
  obtain ⟨before, after, heq⟩ := List.append_of_mem hd
  refine hdead _ _ _ ?_ (h.dead_at before d after heq)
  rw [heq, List.length_append, List.length_cons] at hj
  omega

/-- It is dead when as many items were passed as have at most its key. -/
theorem Passes.dead_at_turn {others : List α} (h : Passes key dead 0 dropped)
    (hperm : heap.Perm (dropped ++ others)) {b : α} (hb : b ∈ dropped) :
    dead (heap.countP (fun c => decide (key c ≤ key b)) - 1) b = true := by
  obtain ⟨before, after, heq⟩ := List.append_of_mem hb
  have hpassed := h.dead_at before b after heq
  have hsorted := h.sorted
  rw [Nat.zero_add] at hpassed
  rw [heq] at hsorted
  have hbefore : before.countP (fun c => decide (key c ≤ key b)) = before.length :=
    List.countP_eq_length.mpr fun c hc => decide_eq_true
      ((List.pairwise_append.mp hsorted).2.2 c hc b List.mem_cons_self)
  have hturn : before.length < heap.countP (fun c => decide (key c ≤ key b)) := by
    rw [hperm.countP_eq, heq, List.append_assoc, List.countP_append, hbefore, List.cons_append,
      List.countP_cons_of_pos (by simp)]
    omega
  exact hdead _ _ _ (by omega) hpassed

end Passes

/-- A scan of `heap` from round `i` on that returns `a`, passes `dropped` before it and leaves
`rest`. -/
structure Scan (key : α → β) (dead : ℕ → α → Bool) (i : ℕ) (heap : List α) (a : α)
    (rest dropped : List α) : Prop where
  isHeap : IsHeap key rest
  perm : heap.Perm (dropped ++ a :: rest)
  live : dead (i + dropped.length) a = false
  passes : Passes key dead i dropped
  dropped_le : ∀ d ∈ dropped, key d ≤ key a
  least : ∀ q ∈ rest, key a ≤ key q

/-- All that `popLive` can do: find every item dead, or return a live one, with the dead ones that
were before it dropped and no live one of a smaller key. -/
theorem IsHeap.popLive_cases (dead : ℕ → α → Bool) (i : ℕ) {rounds : ℕ} {heap : List α}
    (h : IsHeap key heap) (hlen : heap.length = rounds) :
    (popLive lt dead i rounds heap = (none, []) ∧
      ∃ dropped, heap.Perm dropped ∧ Passes key dead i dropped) ∨
    ∃ a rest dropped, popLive lt dead i rounds heap = (some a, rest) ∧
      Scan key dead i heap a rest dropped := by
  induction rounds generalizing i heap with
  | zero =>
    obtain rfl := List.length_eq_zero_iff.mp hlen
    exact Or.inl ⟨rfl, [], List.Perm.refl [], passes_nil i⟩
  | succ rounds ih =>
    cases hpop : Heapq.heappop lt heap with
    | none =>
      rw [(heappop_eq_none lt).mp hpop] at hlen
      cases hlen
    | some popped =>
      obtain ⟨item, rest⟩ := popped
      have hperm := heappop_perm lt hpop
      have hheap := h.heappop hlt hpop
      have hleast : ∀ b ∈ rest, key item ≤ key b := fun b hb =>
        h.heappop_le hpop b (hperm.mem_iff.mpr (List.mem_cons_of_mem _ hb))
      have hlen' : rest.length = rounds := by
        have hl := hperm.length_eq
        rw [List.length_cons, hlen] at hl
        omega
      rw [popLive_succ_of_pop lt hpop]
      split_ifs with hexp
      · -- a dead item comes before all that the rest of the scan passes
        rcases ih (i + 1) hheap hlen' with ⟨hnone, dropped, hp, hpasses⟩ | ⟨a, rest', dropped, hsome,
          hscan⟩
        · refine Or.inl ⟨hnone, item :: dropped, hperm.trans (hp.cons item),
            hpasses.cons (fun b hb => hleast b (hp.mem_iff.mpr hb)) hexp⟩
        · have hdropped : ∀ b ∈ dropped, key item ≤ key b := fun b hb =>
            hleast b (hscan.perm.mem_iff.mpr (List.mem_append_left _ hb))
          refine Or.inr ⟨a, rest', item :: dropped, hsome, hscan.isHeap,
            hperm.trans (hscan.perm.cons item), ?_, hscan.passes.cons hdropped hexp, ?_,
            hscan.least⟩
          · rw [List.length_cons, show i + (dropped.length + 1) = i + 1 + dropped.length by omega]
            exact hscan.live
          · intro d hd
            rcases List.mem_cons.mp hd with rfl | hd
            · exact hleast a (hscan.perm.mem_iff.mpr (List.mem_append_right _ List.mem_cons_self))
            · exact hscan.dropped_le d hd
      · exact Or.inr ⟨item, rest, [], rfl, hheap, hperm, Bool.eq_false_of_not_eq_true hexp,
          passes_nil i, fun d hd => absurd hd List.not_mem_nil, hleast⟩

section Reaches

omit hlt

variable {dead : ℕ → α → Bool} {heap : List α} {a : α} {rest dropped : List α}

theorem Scan.mem {i : ℕ} (h : Scan key dead i heap a rest dropped) : a ∈ heap :=
  h.perm.mem_iff.mpr (List.mem_append_right _ List.mem_cons_self)

/-- A scan can come to `a` in round `i`: it takes the items out in order of their keys, one in each
round, and those of smaller keys are dead when their turn comes at the latest. -/
structure Reaches (key : α → β) (dead : ℕ → α → Bool) (heap : List α) (i : ℕ) (a : α) : Prop where
  mem : a ∈ heap
  lower : heap.countP (fun b => decide (key b < key a)) ≤ i
  upper : i < heap.countP (fun b => decide (key b ≤ key a))
  passed : ∀ b ∈ heap, key b < key a →
    dead (heap.countP (fun c => decide (key c ≤ key b)) - 1) b = true
  live : dead i a = false

theorem Scan.reaches (h : Scan key dead 0 heap a rest dropped)
    (hdead : ∀ i j a, i ≤ j → dead i a = true → dead j a = true) :
    Reaches key dead heap dropped.length a := by
  refine ⟨h.mem, ?_, ?_, fun b hb hlt => ?_, by simpa using h.live⟩
  · have hrest : (a :: rest).countP (fun b => decide (key b < key a)) = 0 := by
      refine List.countP_eq_zero.mpr fun q hq => ?_
      rw [decide_eq_true_iff, not_lt]
      rcases List.mem_cons.mp hq with rfl | hq
      · exact le_rfl
      · exact h.least q hq
    rw [h.perm.countP_eq, List.countP_append, hrest, Nat.add_zero]
    exact List.countP_le_length
  · have hall : dropped.countP (fun b => decide (key b ≤ key a)) = dropped.length :=
      List.countP_eq_length.mpr fun d hd => decide_eq_true (h.dropped_le d hd)
    rw [h.perm.countP_eq, List.countP_append, hall, List.countP_cons_of_pos (by simp)]
    omega
  · refine h.passes.dead_at_turn hdead h.perm ?_
    rcases List.mem_append.mp (h.perm.mem_iff.mp hb) with hb | hb
    · exact hb
    · rcases List.mem_cons.mp hb with rfl | hb
      · exact absurd hlt (lt_irrefl _)
      · exact absurd hlt (not_lt.mpr (h.least b hb))

theorem countP_le_of_nodup {heap : List α} (hn : (heap.map key).Nodup) (b : α) :
    heap.countP (fun c => decide (key c ≤ key b)) ≤
      heap.countP (fun c => decide (key c < key b)) + 1 := by
  have hone : heap.countP (fun c => decide (key c = key b)) ≤ 1 := by
    have hcount := List.nodup_iff_count_le_one.mp hn (key b)
    rw [List.count_eq_countP, List.countP_map] at hcount
    exact (List.countP_congr fun c _ => by simp).le.trans hcount
  have hsplit : heap.countP (fun c => decide (key c ≤ key b)) ≤
      heap.countP (fun c => decide (key c < key b)) +
        heap.countP (fun c => decide (key c = key b)) := by
    clear hn hone
    induction heap with
    | nil => exact le_rfl
    | cons c heap ih =>
      simp only [List.countP_cons, decide_eq_true_eq]
      rcases lt_trichotomy (key c) (key b) with hlt | heq | hgt
      · simp only [hlt, hlt.le, hlt.ne, if_true, if_false]
        omega
      · simp only [heq, le_refl, lt_irrefl, if_true, if_false]
        omega
      · simp only [hgt.not_ge, hgt.not_gt, hgt.ne', if_false]
        omega
  omega

theorem Reaches.turn_eq (hn : (heap.map key).Nodup) {i : ℕ} (h : Reaches key dead heap i a) :
    heap.countP (fun b => decide (key b ≤ key a)) - 1 = i := by
  have hle := countP_le_of_nodup hn a
  have hlower := h.lower
  have hupper := h.upper
  omega

/-- Among different keys there is one item that a scan can come to, and one round. -/
theorem Reaches.unique (hn : (heap.map key).Nodup) {i j : ℕ} {b : α} (h : Reaches key dead heap i a)
    (h' : Reaches key dead heap j b) : i = j ∧ a = b := by
  have hnot : ∀ {i j : ℕ} {a b : α}, Reaches key dead heap i a → Reaches key dead heap j b →
      ¬key a < key b := by
    intro i j a b h h' hlt
    have hdead := h'.passed a h.mem hlt
    rw [h.turn_eq hn, h.live] at hdead
    cases hdead
  have hkey : key a = key b := le_antisymm (not_lt.mp (hnot h' h)) (not_lt.mp (hnot h h'))
  obtain rfl := List.inj_on_of_nodup_map hn h.mem h'.mem hkey
  exact ⟨(h.turn_eq hn).symm.trans (h'.turn_eq hn), rfl⟩

/-- The same scan of what the items are mapped to. -/
theorem Reaches.map {γ : Type*} {f : α → γ} {key' : γ → β} {dead' : ℕ → γ → Bool} {i : ℕ}
    (h : Reaches key dead heap i a) (hkey : ∀ b ∈ heap, key b = key' (f b))
    (hdead : ∀ i b, dead' i (f b) = dead i b) : Reaches key' dead' (heap.map f) i (f a) := by
  have hlt : ∀ b ∈ heap, (heap.map f).countP (fun c => decide (key' c < key' (f b))) =
      heap.countP (fun c => decide (key c < key b)) := by
    intro b hb
    rw [List.countP_map]
    exact List.countP_congr fun c hc => by simp [hkey c hc, hkey b hb]
  have hle : ∀ b ∈ heap, (heap.map f).countP (fun c => decide (key' c ≤ key' (f b))) =
      heap.countP (fun c => decide (key c ≤ key b)) := by
    intro b hb
    rw [List.countP_map]
    exact List.countP_congr fun c hc => by simp [hkey c hc, hkey b hb]
  refine ⟨List.mem_map_of_mem h.mem, ?_, ?_, List.forall_mem_map.mpr fun b hb hblt => ?_, ?_⟩
  · rw [hlt a h.mem]
    exact h.lower
  · rw [hle a h.mem]
    exact h.upper
  · rw [hle b hb, hdead]
    exact h.passed b hb (by rwa [hkey b hb, hkey a h.mem])
  · rw [hdead]
    exact h.live

end Reaches

/-- What a scan of `heap` with the answer `item?` that leaves `rest` promises: the item is live and of
the least key among the live ones, there is none only when all are dead, and what else is gone is
dead. -/
structure Selects (key : α → β) (dead : α → Bool) (heap : List α) (item? : Option α)
    (rest : List α) : Prop where
  none_iff : item? = none ↔ ∀ a ∈ heap, dead a = true
  least : ∀ a, item? = some a →
    a ∈ heap ∧ dead a = false ∧ ∀ b ∈ heap, dead b = false → key a ≤ key b
  kept : ∃ gone, heap.Perm (gone ++ (item?.toList ++ rest)) ∧ ∀ d ∈ gone, dead d = true

/-- The last round of a scan is the one in which its last item is popped. -/
theorem IsHeap.selects {dead : ℕ → α → Bool}
    (hdead : ∀ i j a, i ≤ j → dead i a = true → dead j a = true) {heap : List α}
    (h : IsHeap key heap) {item? : Option α} {rest : List α}
    (hscan : popLive lt dead 0 heap.length heap = (item?, rest)) :
    Selects key (dead (heap.length - rest.length - 1)) heap item? rest := by
  rcases h.popLive_cases hlt dead 0 rfl with ⟨hnone, gone, hperm, hpasses⟩ | ⟨a, rest', gone, hsome,
    hfound⟩
  · obtain ⟨rfl, rfl⟩ := Prod.mk.inj (hscan.symm.trans hnone)
    have hall : ∀ a ∈ heap, dead (heap.length - 0 - 1) a = true := fun a ha =>
      hpasses.dead_of_mem hdead (by rw [← hperm.length_eq]; omega) (hperm.mem_iff.mp ha)
    refine ⟨iff_of_true rfl hall, fun a ha => ?_, heap, ?_, hall⟩
    · cases ha
    · exact (List.append_nil heap).symm ▸ List.Perm.refl _
  · obtain ⟨rfl, rfl⟩ := Prod.mk.inj (hscan.symm.trans hsome)
    have hperm := hfound.perm
    have hlive := hfound.live
    have hlast : heap.length - rest.length - 1 = 0 + gone.length := by
      have hlen := hperm.length_eq
      rw [List.length_append, List.length_cons] at hlen
      omega
    have hgone : ∀ d ∈ gone, dead (0 + gone.length) d = true := fun d hd =>
      hfound.passes.dead_of_mem hdead (by omega) hd
    rw [hlast]
    refine ⟨iff_of_false (Option.some_ne_none a) fun hall => ?_, fun a' ha' => ?_, gone, hperm,
      hgone⟩
    · rw [hall a hfound.mem] at hlive
      cases hlive
    · obtain rfl := Option.some.inj ha'
      refine ⟨hfound.mem, hlive, fun b hb hblive => ?_⟩
      rcases List.mem_append.mp (hperm.mem_iff.mp hb) with hb | hb
      · rw [hgone b hb] at hblive
        cases hblive
      · rcases List.mem_cons.mp hb with rfl | hb
        · exact le_refl _
        · exact hfound.least b hb

end Order

/-! ## Maps -/

section Map

variable {γ : Type*} {f : γ → α} {lt : α → α → Bool}

theorem siftdown_map (newitem : γ) (startpos rounds : ℕ) (heap : List γ) (pos : ℕ) :
    siftdown lt (f newitem) startpos rounds (heap.map f) pos =
      (siftdown (fun a b => lt (f a) (f b)) newitem startpos rounds heap pos).map f := by
  induction rounds generalizing heap pos with
  | zero => rw [siftdown, siftdown, List.map_set]
  | succ rounds ih =>
    rw [siftdown, siftdown, List.getElem?_map]
    split_ifs
    · cases heap[(pos - 1) / 2]? with
      | none => exact List.map_set.symm
      | some parent =>
        dsimp only [Option.map_some]
        split_ifs
        · rw [← List.map_set, ih]
        · exact List.map_set.symm
    · exact List.map_set.symm

theorem siftupHole_map (rounds : ℕ) (heap : List γ) (pos : ℕ) :
    siftupHole lt rounds (heap.map f) pos =
      ((siftupHole (fun a b => lt (f a) (f b)) rounds heap pos).1.map f,
        (siftupHole (fun a b => lt (f a) (f b)) rounds heap pos).2) := by
  induction rounds generalizing heap pos with
  | zero => rfl
  | succ rounds ih =>
    rw [siftupHole, siftupHole, List.getElem?_map, List.getElem?_map]
    cases heap[2 * pos + 1]? with
    | none => rfl
    | some left =>
      cases heap[2 * pos + 2]? with
      | none =>
        dsimp only [Option.map_some, Option.map_none]
        rw [← List.map_set, ih]
      | some right =>
        dsimp only [Option.map_some]
        split_ifs
        · rw [← List.map_set, ih]
        · rw [← List.map_set, ih]

theorem siftup_map (newitem : γ) (heap : List γ) (pos : ℕ) :
    siftup lt (f newitem) (heap.map f) pos =
      (siftup (fun a b => lt (f a) (f b)) newitem heap pos).map f := by
  unfold siftup
  dsimp only
  rw [siftupHole_map, siftdown_map, List.length_map]

theorem heappush_map (heap : List γ) (item : γ) :
    heappush lt (heap.map f) (f item) =
      (heappush (fun a b => lt (f a) (f b)) heap item).map f := by
  unfold heappush
  rw [← siftdown_map, List.map_append, List.length_map, List.map_singleton]

theorem heappop_map (heap : List γ) :
    heappop lt (heap.map f) =
      (heappop (fun a b => lt (f a) (f b)) heap).map fun p => (f p.1, p.2.map f) := by
  cases heap using List.reverseRecOn with
  | nil => rfl
  | append_singleton init last =>
    unfold heappop
    rw [List.map_append, List.map_singleton, List.getLast?_concat, List.getLast?_concat,
      List.dropLast_concat, List.dropLast_concat]
    cases init with
    | nil => rfl
    | cons first init =>
      show some (f first, siftup lt (f last) ((first :: init).map f) 0) = _
      rw [siftup_map]
      rfl

theorem popLive_map (dead : ℕ → α → Bool) (i rounds : ℕ) (heap : List γ) :
    popLive lt dead i rounds (heap.map f) =
      ((popLive (fun a b => lt (f a) (f b)) (fun j a => dead j (f a)) i rounds heap).1.map f,
        (popLive (fun a b => lt (f a) (f b)) (fun j a => dead j (f a)) i rounds heap).2.map f) := by
  induction rounds generalizing i heap with
  | zero => rfl
  | succ rounds ih =>
    rw [popLive, popLive, heappop_map]
    cases heappop (fun a b => lt (f a) (f b)) heap with
    | none => rfl
    | some popped =>
      dsimp only [Option.map_some]
      split_ifs
      · exact ih _ _
      · rfl

end Map

end Py.Heapq
