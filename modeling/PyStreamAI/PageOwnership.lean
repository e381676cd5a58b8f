import PyStreamAI.PagedAttention

/-!
# Who holds which page

Nothing in the pool compares the used flags with the page lists. That no page is listed twice and
every listed page is used (`Owned`) is kept by every call (`owned_run`), so the lists of two
requests are disjoint (`allocate_exclusive`). That conversely every used page is listed is lost
by one kind of call, an allocation for a request that still holds pages: its old list is
overwritten (`noLeak_iff`).
-/

open Py Machine

namespace PyStreamAI

namespace PagedAttention

/-! ## Ownership -/

/-- No page is listed twice, and listed pages are used. -/
structure Owned (s : PagedAttention) : Prop where
  nodup : ∀ id ps, s.requests.get? id = some ps → ps.Nodup
  disjoint : ∀ id id' ps ps', id ≠ id' → s.requests.get? id = some ps →
    s.requests.get? id' = some ps' → ps.Disjoint ps'
  used : ∀ id ps, s.requests.get? id = some ps → ∀ i ∈ ps, s.pages[i]? = some true

theorem owned_init (pageSizeTokens numPages : ℤ) : Owned (init pageSizeTokens numPages) where
  nodup _ _ h := by cases h
  disjoint _ _ _ _ _ h := by cases h
  used _ _ h := by cases h

/-- The pages taken were free, so no request lists them. -/
theorem Owned.notMem_taken {s : PagedAttention} (h : Owned s) {id : String} {ps : List ℕ}
    (hps : s.requests.get? id = some ps) (numTokens : ℤ) {i : ℕ} (hi : i ∈ ps) :
    i ∉ s.taken numTokens := by
  intro htaken
  have hfree := free_of_mem_taken htaken
  rw [h.used id ps hps i hi] at hfree
  cases hfree

/-- Allocating keeps used pages used. -/
theorem used_allocatePages {s : PagedAttention} (hp : s.pageSizeTokens ≠ 0) (id : String) (n : ℤ)
    {i : ℕ} : (s.allocatePages id n).2.pages[i]? = some true ↔
      s.pages[i]? = some true ∨ i ∈ s.taken n := by
  rw [pages_allocatePages id n hp, getElem?_setUsed]
  by_cases hi : i ∈ s.taken n
  · rw [if_pos hi, free_of_mem_taken hi]
    simp [hi]
  · simp [hi]

theorem Owned.allocatePages {s : PagedAttention} (h : Owned s) (id : String) (n : ℤ) :
    Owned (s.allocatePages id n).2 := by
  by_cases hp : s.pageSizeTokens = 0
  · rw [allocatePages_of_zero id n hp]
    exact h
  refine ⟨fun id' ps hps => ?_, fun id₁ id₂ ps₁ ps₂ hne h₁ h₂ => ?_, fun id' ps hps i hi => ?_⟩
  · rw [requests_allocatePages id n hp, Dict.get?_set] at hps
    split_ifs at hps
    · rw [← Option.some.inj hps]
      exact s.nodup_taken n
    · exact h.nodup id' ps hps
  · rw [requests_allocatePages id n hp, Dict.get?_set] at h₁ h₂
    split_ifs at h₁ h₂ with hid₁ hid₂ hid₂
    · exact absurd (hid₁.trans hid₂.symm) hne
    · rw [← Option.some.inj h₁]
      exact fun i hi₁ hi₂ => h.notMem_taken h₂ n hi₂ hi₁
    · rw [← Option.some.inj h₂]
      exact fun i hi₁ hi₂ => h.notMem_taken h₁ n hi₁ hi₂
    · exact h.disjoint id₁ id₂ ps₁ ps₂ hne h₁ h₂
  · rw [used_allocatePages hp]
    rw [requests_allocatePages id n hp, Dict.get?_set] at hps
    split_ifs at hps
    · rw [← Option.some.inj hps] at hi
      exact Or.inr hi
    · exact Or.inl (h.used id' ps hps i hi)

/-- The used pages after a request let go of its own. -/
theorem Owned.used_deallocatePages {s : PagedAttention} (h : Owned s) {id : String} {ps : List ℕ}
    (hps : s.requests.get? id = some ps) {i : ℕ} :
    (s.deallocatePages id).pages[i]? = some true ↔ s.pages[i]? = some true ∧ i ∉ ps := by
  unfold PagedAttention.deallocatePages
  rw [hps]
  dsimp only
  rw [getElem?_setUsed]
  by_cases hi : i ∈ ps
  · rw [if_pos hi, h.used id ps hps i hi]
    simp [hi]
  · simp [hi]

theorem requests_deallocatePages (s : PagedAttention) (id : String) :
    (s.deallocatePages id).requests = s.requests.erase id := by
  unfold deallocatePages
  cases hps : s.requests.get? id with
  | some ps => rfl
  | none => exact (Dict.erase_of_none hps).symm

theorem deallocatePages_of_none {s : PagedAttention} {id : String}
    (h : s.requests.get? id = none) : s.deallocatePages id = s := by
  unfold deallocatePages; rw [h]

theorem Owned.deallocatePages {s : PagedAttention} (h : Owned s) (id : String) :
    Owned (s.deallocatePages id) := by
  cases hps : s.requests.get? id with
  | none =>
    rw [deallocatePages_of_none hps]
    exact h
  | some ps =>
    refine ⟨fun id' ps' h' => ?_, fun id₁ id₂ ps₁ ps₂ hne h₁ h₂ => ?_, fun id' ps' h' i hi => ?_⟩
    · rw [requests_deallocatePages, Dict.get?_erase] at h'
      split_ifs at h'
      exact h.nodup id' ps' h'
    · rw [requests_deallocatePages, Dict.get?_erase] at h₁ h₂
      split_ifs at h₁ h₂
      exact h.disjoint id₁ id₂ ps₁ ps₂ hne h₁ h₂
    · rw [requests_deallocatePages, Dict.get?_erase] at h'
      split_ifs at h' with hid
      rw [h.used_deallocatePages hps]
      exact ⟨h.used id' ps' h' i hi, h.disjoint id' id ps' ps hid h' hps hi⟩

theorem Owned.step {s : PagedAttention} (h : Owned s) (op : Op) : Owned (s.step op) := by
  cases op with
  | allocatePages id n => exact h.allocatePages id n
  | deallocatePages id => exact h.deallocatePages id
  | getMemoryUsage => exact h

/-- Every history leaves an owned pool. -/
theorem owned_run (pageSizeTokens numPages : ℤ) (tr : List Op) :
    Owned (run step (init pageSizeTokens numPages) tr) :=
  run_invariant (owned_init pageSizeTokens numPages) (fun _ h op => h.step op) tr

theorem sizes_run (pageSizeTokens numPages : ℤ) (tr : List Op) :
    (run step (init pageSizeTokens numPages) tr).pageSizeTokens = pageSizeTokens ∧
      (run step (init pageSizeTokens numPages) tr).numPages = numPages :=
  run_invariant (I := fun s : PagedAttention => s.pageSizeTokens = pageSizeTokens ∧ s.numPages = numPages)
    ⟨rfl, rfl⟩ (fun s h op => ⟨(s.sizes_step op).1.trans h.1, (s.sizes_step op).2.trans h.2⟩) tr

/-! ## Exclusive pages -/

/-- For a positive page size the needed pages are the tokens over the page size, rounded up. -/
theorem pagesNeeded_eq_ceil {s : PagedAttention} (hp : 0 < s.pageSizeTokens) (n : ℤ) :
    s.pagesNeeded n = ⌈(n : ℚ) / s.pageSizeTokens⌉ := by
  have hp' : (0 : ℚ) < s.pageSizeTokens := by exact_mod_cast hp
  have hdiv := Int.mul_ediv_add_emod (n + s.pageSizeTokens - 1) s.pageSizeTokens
  have hnonneg := Int.emod_nonneg (n + s.pageSizeTokens - 1) hp.ne'
  have hlt := Int.emod_lt_of_pos (n + s.pageSizeTokens - 1) hp
  unfold pagesNeeded
  rw [Int.fdiv_eq_ediv_of_nonneg _ hp.le]
  symm
  rw [Int.ceil_eq_iff]
  constructor
  · rw [lt_div_iff₀ hp']
    norm_cast
    rw [Int.mul_comm, Int.mul_sub, Int.mul_one]
    omega
  · rw [div_le_iff₀ hp']
    norm_cast
    rw [Int.mul_comm]
    omega

/-- **Exclusive pages.** After every history the page lists of two requests are disjoint, no list
repeats a page, and listed pages are in range and used. With a positive page size the next
allocation gets the lowest free pages, as many as its tokens fill or as there are. -/
theorem allocate_exclusive (pageSizeTokens numPages : ℤ) (tr : List Op) :
    let s := run step (init pageSizeTokens numPages) tr
    (∀ id id' ps ps', id ≠ id' → s.requests.get? id = some ps → s.requests.get? id' = some ps' →
        ps.Disjoint ps') ∧
      (∀ id ps, s.requests.get? id = some ps →
        ps.Nodup ∧ ∀ i ∈ ps, (i : ℤ) < numPages ∧ s.pages[i]? = some true) ∧
      (0 < pageSizeTokens → ∀ id n, (s.allocatePages id n).1 =
        .ok (s.freePages.take
          (min (max 0 ⌈(n : ℚ) / pageSizeTokens⌉) s.freePages.length).toNat)) := by
  intro s
  have howned : Owned s := owned_run pageSizeTokens numPages tr
  obtain ⟨hsize, hnum⟩ : s.pageSizeTokens = pageSizeTokens ∧ s.numPages = numPages :=
    sizes_run pageSizeTokens numPages tr
  refine ⟨howned.disjoint, fun id ps hps => ⟨howned.nodup id ps hps, fun i hi => ?_⟩,
    fun hp id n => ?_⟩
  · have hused := howned.used id ps hps i hi
    have hlt := (List.getElem?_eq_some_iff.mp hused).1
    rw [s.length_pages, hnum] at hlt
    exact ⟨by omega, hused⟩
  · rw [← hsize] at hp ⊢
    rw [allocatePages_fst id n hp.ne', ← pagesNeeded_eq_ceil hp]
    have hcount : min (s.pagesNeeded n).toNat s.freePages.length =
        (min (max 0 (s.pagesNeeded n)) s.freePages.length).toNat := by omega
    unfold taken
    rw [List.take_eq_take_min, hcount]

/-- The second request of a pool of four pages gets the two pages after that of the first. -/
theorem secondRequest_exclusive :
    let s := run step (init 16 4) [.allocatePages "a" 10]
    (s.allocatePages "b" 20).1 = .ok [1, 2] := by
  intro s
  have hceil : ⌈((20 : ℤ) : ℚ) / (16 : ℤ)⌉ = 2 := by norm_num [Int.ceil_eq_iff]
  have hfree : s.freePages = [1, 2, 3] := by decide +kernel
  have h := (allocate_exclusive 16 4 [.allocatePages "a" 10]).2.2 (by decide) "b" 20
  rw [hceil] at h
  exact h.trans (by rw [hfree]; rfl)

/-! ## Leaked pages -/

/-- The used pages are those that some request lists. -/
def Listed (s : PagedAttention) : Prop :=
  ∀ i, s.pages[i]? = some true ↔ ∃ id ps, s.requests.get? id = some ps ∧ i ∈ ps

theorem listed_init (pageSizeTokens numPages : ℤ) : Listed (init pageSizeTokens numPages) := by
  intro i
  constructor
  · intro h
    have hmem := List.eq_of_mem_replicate (List.mem_of_getElem? h)
    cases hmem
  · rintro ⟨id, ps, hps, -⟩
    cases hps

theorem Listed.deallocatePages {s : PagedAttention} (h : Listed s) (hs : Owned s) (id : String) :
    Listed (s.deallocatePages id) := by
  cases hps : s.requests.get? id with
  | none =>
    rw [deallocatePages_of_none hps]
    exact h
  | some ps =>
    intro i
    rw [hs.used_deallocatePages hps, h i]
    constructor
    · rintro ⟨⟨id', ps', hps', hi'⟩, hi⟩
      have hid : id' ≠ id := by
        rintro rfl
        rw [hps] at hps'
        exact hi (Option.some.inj hps' ▸ hi')
      exact ⟨id', ps', by rw [requests_deallocatePages, Dict.get?_erase, if_neg hid]; exact hps', hi'⟩
    · rintro ⟨id', ps', hps', hi'⟩
      rw [requests_deallocatePages, Dict.get?_erase] at hps'
      split_ifs at hps' with hid
      exact ⟨⟨id', ps', hps', hi'⟩, hs.disjoint id' id ps' ps hid hps' hps hi'⟩

/-- An allocation leaks the pages that the request held before. -/
theorem Listed.allocatePages_iff {s : PagedAttention} (h : Listed s) (hs : Owned s)
    (hp : s.pageSizeTokens ≠ 0) (id : String) (n : ℤ) :
    Listed (s.allocatePages id n).2 ↔ ∀ ps, s.requests.get? id = some ps → ps = [] := by
  constructor
  · intro hlisted ps hps
    refine List.eq_nil_iff_forall_not_mem.mpr fun i hi => ?_
    have hused := (used_allocatePages hp id n).mpr (Or.inl (hs.used id ps hps i hi))
    obtain ⟨id', ps', hps', hi'⟩ := (hlisted i).mp hused
    rw [requests_allocatePages id n hp, Dict.get?_set] at hps'
    split_ifs at hps' with hid
    · rw [← Option.some.inj hps'] at hi'
      exact hs.notMem_taken hps n hi hi'
    · exact hs.disjoint id' id ps' ps hid hps' hps hi' hi
  · intro hnone i
    rw [used_allocatePages hp, h i]
    constructor
    · rintro (⟨id', ps', hps', hi'⟩ | hi)
      · have hid : id' ≠ id := by
          rintro rfl
          rw [hnone ps' hps'] at hi'
          cases hi'
        refine ⟨id', ps', ?_, hi'⟩
        rw [requests_allocatePages id n hp, Dict.get?_set, if_neg hid]
        exact hps'
      · refine ⟨id, s.taken n, ?_, hi⟩
        rw [requests_allocatePages id n hp, Dict.get?_set, if_pos rfl]
    · rintro ⟨id', ps', hps', hi'⟩
      rw [requests_allocatePages id n hp, Dict.get?_set] at hps'
      split_ifs at hps'
      · rw [← Option.some.inj hps'] at hi'
        exact Or.inr hi'
      · exact Or.inl ⟨id', ps', hps', hi'⟩

/-- A pool that leaks nothing: the used pages are the listed ones, and once every request is
deallocated, in any order, no page is used. -/
structure NoLeak (s : PagedAttention) : Prop where
  listed : s.Listed
  drained : ∀ ids : List String, s.requests.keys ⊆ ids → ∀ i : ℕ,
    (run step s (ids.map Op.deallocatePages)).pages[i]? ≠ some true

theorem requests_deallocateAll (s : PagedAttention) (ids : List String) :
    (run step s (ids.map Op.deallocatePages)).requests = s.requests.eraseAll ids := by
  induction ids generalizing s with
  | nil => rfl
  | cons id ids ih =>
    rw [List.map_cons, run_cons, ih]
    show (s.deallocatePages id).requests.eraseAll ids = _
    rw [requests_deallocatePages]
    rfl

/-- When the used pages are the listed ones, deallocating every request frees every page. -/
theorem Listed.noLeak {s : PagedAttention} (h : Listed s) (hs : Owned s) : NoLeak s := by
  refine ⟨h, fun ids hids i hused => ?_⟩
  have hboth : Owned (run step s (ids.map .deallocatePages)) ∧
      Listed (run step s (ids.map .deallocatePages)) := by
    clear hids hused
    induction ids generalizing s with
    | nil => exact ⟨hs, h⟩
    | cons id ids ih => exact ih (h.deallocatePages hs id) (hs.deallocatePages id)
  obtain ⟨id, ps, hps, -⟩ := (hboth.2 i).mp hused
  rw [requests_deallocateAll, Dict.get?_eraseAll] at hps
  split_ifs at hps with hid
  refine hid (hids ?_)
  by_contra hkey
  rw [Dict.get?_eq_none.mpr hkey] at hps
  cases hps

/-- The calls that leak nothing: all but an allocation for a request that holds pages. -/
def HoldsNone (s : PagedAttention) (op : Op) : Prop :=
  ∀ id n ps, op = .allocatePages id n → s.requests.get? id = some ps → ps = []

/-- **No leak.** A history never leaks a page exactly when none of its calls allocates pages for a
request that holds some. -/
theorem noLeak_iff {pageSizeTokens : ℤ} (hp : 0 < pageSizeTokens) (numPages : ℤ) (tr : List Op) :
    (∀ pre, pre <+: tr → NoLeak (run step (init pageSizeTokens numPages) pre)) ↔
      Along step HoldsNone (init pageSizeTokens numPages) tr := by
  have hlisted : (∀ pre, pre <+: tr → Listed (run step (init pageSizeTokens numPages) pre)) ↔
      Along step HoldsNone (init pageSizeTokens numPages) tr := by
    refine forall_prefix_iff_along (listed_init pageSizeTokens numPages) (fun pre h op => ?_) tr
    have hs := owned_run pageSizeTokens numPages pre
    rw [run_snoc]
    cases op with
    | allocatePages id n =>
      have hsize : (run step (init pageSizeTokens numPages) pre).pageSizeTokens ≠ 0 := by
        rw [(sizes_run pageSizeTokens numPages pre).1]
        exact hp.ne'
      show _ ↔ Listed (PagedAttention.allocatePages _ id n).2
      rw [h.allocatePages_iff hs hsize]
      constructor
      · exact fun hnone ps => hnone id n ps rfl
      · rintro hnone id' n' ps heq
        cases heq
        exact hnone ps
    | deallocatePages id => exact ⟨fun _ => h.deallocatePages hs id, fun _ _ _ _ e => by cases e⟩
    | getMemoryUsage => exact ⟨fun _ => h, fun _ _ _ _ e => by cases e⟩
  rw [← hlisted]
  constructor
  · exact fun h pre hpre => (h pre hpre).listed
  · exact fun h pre hpre => (h pre hpre).noLeak (owned_run pageSizeTokens numPages pre)

/-- One request that ends, and comes back with more tokens. -/
def returningRequest : List Op :=
  [.allocatePages "r" 16, .deallocatePages "r", .allocatePages "r" 32]

theorem returningRequest_noLeak : NoLeak (run step (init 16 4) returningRequest) := by
  refine (noLeak_iff (by decide) 4 returningRequest).mpr ⟨?_, ?_, ?_, trivial⟩ returningRequest
    List.prefix_rfl
  · intro id n ps _ h
    cases h
  · intro id n ps heq _
    cases heq
  · intro id n ps heq h
    cases heq
    have hnone : (step (step (init 16 4) (.allocatePages "r" 16))
        (.deallocatePages "r")).requests.get? "r" = none := by decide +kernel
    rw [hnone] at h
    cases h

/-- One request that grows from one page to two, and ends. -/
def grownRequest : List Op :=
  [.allocatePages "r" 16, .allocatePages "r" 32, .deallocatePages "r"]

/-- The first page of the grown request stays used with no request left. -/
theorem grownRequest_leaks :
    let s := run step (init 16 4) grownRequest
    s.requests = ∅ ∧ s.pages = [true, false, false, false] ∧ ¬ NoLeak s := by
  have hpages : (run step (init 16 4) grownRequest).pages = [true, false, false, false] := by
    decide +kernel
  refine ⟨by decide +kernel, hpages, fun h => ?_⟩
  refine h.drained [] (by decide +kernel) 0 ?_
  show (run step (init 16 4) grownRequest).pages[0]? = some true
  rw [hpages]
  rfl

end PagedAttention

end PyStreamAI
