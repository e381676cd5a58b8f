import Mathlib.Data.Rat.Floor
import Mathlib.Data.List.Nodup
import PyStreamAI.Machine
import PyStreamAI.Py.Basic
import PyStreamAI.Py.Dict

/-!
# Paged attention

A pool of numbered pages with one used flag each, and the list of pages each request was given.
`allocate_pages` walks the pages in order and takes the free ones until it has enough. What it
takes is the beginning of the list of free pages (`allocateLoop_eq`).
-/

open Py

namespace PyStreamAI

/-- Paged attention for memory-efficient LLM serving. `pages` holds the used flags. -/
structure PagedAttention where
  pageSizeTokens : ℤ
  numPages : ℤ
  pages : List Bool
  length_pages : pages.length = numPages.toNat
  requests : Dict String (List ℕ)
  deriving DecidableEq

/-- The result of `get_memory_usage`. -/
structure MemoryUsage where
  usedPages : ℕ
  totalPages : ℤ
  totalTokensCached : ℤ
  memoryUtilization : ℚ
  deriving DecidableEq

namespace PagedAttention

/-- `self.pages[i]["used"] = used` for each `i` of `is`. -/
def setUsed (used : Bool) (pages : List Bool) (is : List ℕ) : List Bool :=
  is.foldl (fun pages i => pages.set i used) pages

theorem length_setUsed (used : Bool) (pages : List Bool) (is : List ℕ) :
    (setUsed used pages is).length = pages.length := by
  induction is generalizing pages with
  | nil => rfl
  | cons i is ih =>
    unfold setUsed at ih ⊢
    rw [List.foldl_cons, ih, List.length_set]

/-- `PagedAttention(page_size_tokens, num_pages)`; by default 16 tokens and 100 pages. -/
def init (pageSizeTokens numPages : ℤ) : PagedAttention where
  pageSizeTokens
  numPages
  pages := List.replicate numPages.toNat false
  length_pages := List.length_replicate
  requests := ∅

/-- The loop of `allocate_pages` over the page numbers `is`. -/
def allocateLoop (pagesNeeded : ℤ) : List ℕ → List Bool → List ℕ → List Bool × List ℕ
  | [], pages, allocated => (pages, allocated)
  | i :: is, pages, allocated =>
    if pagesNeeded ≤ allocated.length then (pages, allocated)
    else if pages[i]? = some false then
      allocateLoop pagesNeeded is (pages.set i true) (allocated ++ [i])
    else allocateLoop pagesNeeded is pages allocated

/-- The pages of `is` that are free. -/
def freeAmong (pages : List Bool) (is : List ℕ) : List ℕ := is.filter fun i => pages[i]? = some false

theorem freeAmong_set_of_notMem {pages : List Bool} {is : List ℕ} {i : ℕ} (h : i ∉ is) (used : Bool) :
    freeAmong (pages.set i used) is = freeAmong pages is := by
  refine List.filter_congr fun j hj => ?_
  have hne : i ≠ j := fun e => h (e ▸ hj)
  rw [List.getElem?_set_ne hne]

/-- The loop marks and adds the first free pages, as many as are missing. -/
theorem allocateLoop_eq (pagesNeeded : ℤ) {is : List ℕ} (hn : is.Nodup) (pages : List Bool)
    (allocated : List ℕ) :
    allocateLoop pagesNeeded is pages allocated =
      (setUsed true pages ((freeAmong pages is).take (pagesNeeded - allocated.length).toNat),
        allocated ++ (freeAmong pages is).take (pagesNeeded - allocated.length).toNat) := by
  induction is generalizing pages allocated with
  | nil => simp [allocateLoop, freeAmong, setUsed]
  | cons i is ih =>
    obtain ⟨hi, hn⟩ := List.nodup_cons.mp hn
    rw [allocateLoop]
    by_cases henough : pagesNeeded ≤ allocated.length
    · have hzero : (pagesNeeded - allocated.length).toNat = 0 := by omega
      rw [if_pos henough, hzero]
      simp [setUsed]
    · rw [if_neg henough]
      by_cases hfree : pages[i]? = some false
      · have hsucc : (pagesNeeded - allocated.length).toNat =
            (pagesNeeded - (allocated ++ [i]).length).toNat + 1 := by
          rw [List.length_append, List.length_singleton]
          omega
        have hcons : freeAmong pages (i :: is) = i :: freeAmong pages is :=
          List.filter_cons_of_pos (by simpa using hfree)
        rw [if_pos hfree, ih hn, freeAmong_set_of_notMem hi, hcons, hsucc, List.take_succ_cons,
          List.append_assoc]
        rfl
      · have hcons : freeAmong pages (i :: is) = freeAmong pages is :=
          List.filter_cons_of_neg (by simpa using hfree)
        rw [if_neg hfree, ih hn, hcons]

/-- `(num_tokens + self.page_size_tokens - 1) // self.page_size_tokens`. -/
def pagesNeeded (s : PagedAttention) (numTokens : ℤ) : ℤ :=
  (numTokens + s.pageSizeTokens - 1).fdiv s.pageSizeTokens

/-- Allocate pages for a request. -/
def allocatePages (s : PagedAttention) (requestId : String) (numTokens : ℤ) :
    Res PagedAttention (List ℕ) :=
  if s.pageSizeTokens = 0 then
    (.error ⟨"ZeroDivisionError", "integer division or modulo by zero"⟩, s)
  else
    let out := allocateLoop (s.pagesNeeded numTokens) (List.range s.numPages.toNat) s.pages []
    (.ok out.2, { s with
      pages := out.1
      length_pages := by
        show (allocateLoop _ _ _ _).1.length = _
        rw [allocateLoop_eq _ List.nodup_range, length_setUsed]
        exact s.length_pages
      requests := s.requests.set requestId out.2 })

/-- Deallocate the pages of a request. -/
def deallocatePages (s : PagedAttention) (requestId : String) : PagedAttention :=
  match s.requests.get? requestId with
  | some pageIds =>
    { s with
      pages := setUsed false s.pages pageIds
      length_pages := (length_setUsed _ _ _).trans s.length_pages
      requests := s.requests.erase requestId }
  | none => s

/-- Memory usage statistics. -/
def getMemoryUsage (s : PagedAttention) : Except Error MemoryUsage :=
  let usedPages := s.pages.countP id
  if s.numPages = 0 then .error ⟨"ZeroDivisionError", "division by zero"⟩
  else .ok
      { usedPages
        totalPages := s.numPages
        totalTokensCached := usedPages * s.pageSizeTokens
        memoryUtilization := usedPages / s.numPages * 100 }

/-! ## Histories of calls -/

/-- A call on the pool. -/
inductive Op
  | allocatePages (requestId : String) (numTokens : ℤ)
  | deallocatePages (requestId : String)
  | getMemoryUsage
  deriving DecidableEq

/-- The pool after a call, whether or not the call raised. -/
def step (s : PagedAttention) : Op → PagedAttention
  | .allocatePages requestId numTokens => (s.allocatePages requestId numTokens).2
  | .deallocatePages requestId => s.deallocatePages requestId
  | .getMemoryUsage => s

/-! ## What each call does -/

theorem getElem?_setUsed (used : Bool) (pages : List Bool) (is : List ℕ) (j : ℕ) :
    (setUsed used pages is)[j]? = if j ∈ is then pages[j]?.map fun _ => used else pages[j]? := by
  unfold setUsed
  induction is generalizing pages with
  | nil => simp
  | cons i is ih =>
    rw [List.foldl_cons, ih, List.getElem?_set']
    by_cases hi : i = j
    · subst hi
      cases pages[i]? <;> simp
    · simp [hi, Ne.symm hi]

/-- The free pages, lowest number first. -/
def freePages (s : PagedAttention) : List ℕ := freeAmong s.pages (List.range s.numPages.toNat)

/-- The pages the next call of `allocate_pages` takes. -/
def taken (s : PagedAttention) (numTokens : ℤ) : List ℕ :=
  s.freePages.take (s.pagesNeeded numTokens).toNat

theorem mem_freePages {s : PagedAttention} {i : ℕ} : i ∈ s.freePages ↔ s.pages[i]? = some false := by
  unfold freePages freeAmong
  rw [List.mem_filter, List.mem_range, decide_eq_true_eq, and_iff_right_iff_imp]
  intro h
  rw [← s.length_pages]
  exact (List.getElem?_eq_some_iff.mp h).1

theorem nodup_freePages (s : PagedAttention) : s.freePages.Nodup := List.nodup_range.filter _

theorem nodup_taken (s : PagedAttention) (numTokens : ℤ) : (s.taken numTokens).Nodup :=
  s.nodup_freePages.sublist (List.take_sublist _ _)

theorem free_of_mem_taken {s : PagedAttention} {numTokens : ℤ} {i : ℕ} (h : i ∈ s.taken numTokens) :
    s.pages[i]? = some false := mem_freePages.mp (List.mem_of_mem_take h)

section Calls

variable {s : PagedAttention} (requestId : String) (numTokens : ℤ)

theorem allocatePages_of_zero (h : s.pageSizeTokens = 0) :
    (s.allocatePages requestId numTokens).2 = s := by
  unfold allocatePages; rw [if_pos h]

theorem allocatePages_fst (h : s.pageSizeTokens ≠ 0) :
    (s.allocatePages requestId numTokens).1 = .ok (s.taken numTokens) := by
  unfold allocatePages
  rw [if_neg h]
  dsimp only
  rw [allocateLoop_eq _ List.nodup_range, List.nil_append, List.length_nil, Nat.cast_zero, sub_zero]
  rfl

theorem pages_allocatePages (h : s.pageSizeTokens ≠ 0) :
    (s.allocatePages requestId numTokens).2.pages =
      setUsed true s.pages (s.taken numTokens) := by
  unfold allocatePages
  rw [if_neg h]
  dsimp only
  rw [allocateLoop_eq _ List.nodup_range, List.length_nil, Nat.cast_zero, sub_zero]
  rfl

theorem requests_allocatePages (h : s.pageSizeTokens ≠ 0) :
    (s.allocatePages requestId numTokens).2.requests =
      s.requests.set requestId (s.taken numTokens) := by
  unfold allocatePages
  rw [if_neg h]
  dsimp only
  rw [allocateLoop_eq _ List.nodup_range, List.nil_append, List.length_nil, Nat.cast_zero, sub_zero]
  rfl

/-- The sizes of the pool stay what they are. -/
theorem sizes_step (s : PagedAttention) (op : Op) :
    (s.step op).pageSizeTokens = s.pageSizeTokens ∧ (s.step op).numPages = s.numPages := by
  cases op with
  | allocatePages requestId numTokens =>
    unfold step allocatePages
    dsimp only
    split_ifs <;> exact ⟨rfl, rfl⟩
  | deallocatePages requestId =>
    unfold step deallocatePages
    dsimp only
    split <;> exact ⟨rfl, rfl⟩
  | getMemoryUsage => exact ⟨rfl, rfl⟩

end Calls

end PagedAttention

end PyStreamAI
