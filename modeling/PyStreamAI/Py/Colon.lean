import PyStreamAI.Py.Basic
import Mathlib.Data.List.Basic

/-!
# Texts joined by a colon

`f"{a}:{b}"` tells its two parts when the left one has no colon, and also when the right one has
none. Without either, the same text is joined from different parts (`colonJoin_assoc`).
-/

namespace Py

/-- `f"{a}:{b}"`. -/
def colonJoin (a b : String) : String := a ++ ":" ++ b

theorem toList_colonJoin (a b : String) : (colonJoin a b).toList = a.toList ++ ':' :: b.toList := by
  unfold colonJoin
  rw [String.toList_append, String.toList_append, List.append_assoc]
  rfl

/-- Two texts are joined at the first `:`, when the left one has none. -/
theorem append_colon_inj {as as' bs bs' : List Char} (h : ':' ∉ as) (h' : ':' ∉ as')
    (heq : as ++ ':' :: bs = as' ++ ':' :: bs') : as = as' ∧ bs = bs' := by
  induction as generalizing as' with
  | nil =>
    cases as' with
    | nil => exact ⟨rfl, (List.cons.inj heq).2⟩
    | cons c cs => exact absurd (List.mem_cons.mpr (Or.inl (List.cons.inj heq).1)) h'
  | cons a as ih =>
    cases as' with
    | nil => exact absurd (List.mem_cons.mpr (Or.inl (List.cons.inj heq).1.symm)) h
    | cons c cs =>
      obtain ⟨rfl, htail⟩ := List.cons.inj heq
      obtain ⟨rfl, hbs⟩ := ih (mt (List.mem_cons_of_mem a) h) (mt (List.mem_cons_of_mem a) h') htail
      exact ⟨rfl, hbs⟩

theorem colonJoin_inj_of_left {a a' b b' : String} (h : ':' ∉ a.toList) (h' : ':' ∉ a'.toList)
    (heq : colonJoin a b = colonJoin a' b') : a = a' ∧ b = b' := by
  have hlists := congrArg String.toList heq
  rw [toList_colonJoin, toList_colonJoin] at hlists
  obtain ⟨ha, hb⟩ := append_colon_inj h h' hlists
  exact ⟨String.toList_injective ha, String.toList_injective hb⟩

theorem colonJoin_assoc (a b c : String) :
    colonJoin a (colonJoin b c) = colonJoin (colonJoin a b) c := by
  unfold colonJoin
  simp only [String.append_assoc]

/-- Two joined texts are equal when their parts are, or when one of them splits further right. -/
theorem colonJoin_eq_iff {a b c d : String} :
    colonJoin a b = colonJoin c d ↔ (a = c ∧ b = d) ∨ (∃ u, c = colonJoin a u ∧ b = colonJoin u d) ∨
      ∃ u, a = colonJoin c u ∧ d = colonJoin u b := by
  constructor
  · intro heq
    have hlists := congrArg String.toList heq
    rw [toList_colonJoin, toList_colonJoin] at hlists
    rcases List.append_eq_append_iff.mp hlists with ⟨us, hc, hb⟩ | ⟨us, ha, hd⟩
    · cases us with
      | nil =>
        rw [List.append_nil] at hc
        exact Or.inl ⟨String.toList_injective hc.symm, String.toList_injective (List.cons.inj hb).2⟩
      | cons e us =>
        obtain ⟨rfl, hb'⟩ := List.cons.inj hb
        refine Or.inr (Or.inl ⟨String.ofList us, String.toList_injective ?_,
          String.toList_injective ?_⟩)
        · rw [toList_colonJoin, String.toList_ofList, hc]
        · rw [toList_colonJoin, String.toList_ofList]
          exact hb'
    · cases us with
      | nil =>
        rw [List.append_nil] at ha
        exact Or.inl
          ⟨String.toList_injective ha, String.toList_injective (List.cons.inj hd).2.symm⟩
      | cons e us =>
        obtain ⟨rfl, hd'⟩ := List.cons.inj hd
        refine Or.inr (Or.inr ⟨String.ofList us, String.toList_injective ?_,
          String.toList_injective ?_⟩)
        · rw [toList_colonJoin, String.toList_ofList, ha]
        · rw [toList_colonJoin, String.toList_ofList]
          exact hd'
  · rintro (⟨rfl, rfl⟩ | ⟨u, rfl, rfl⟩ | ⟨u, rfl, rfl⟩)
    · rfl
    · exact colonJoin_assoc a u d
    · exact (colonJoin_assoc c u b).symm

theorem colonJoin_ne_left (a b : String) : colonJoin a b ≠ a := by
  intro h
  have hlength := congrArg (fun s => s.toList.length) h
  simp only [toList_colonJoin, List.length_append, List.length_cons] at hlength
  omega

theorem colonJoin_ne_right (a b : String) : colonJoin a b ≠ b := by
  intro h
  have hlength := congrArg (fun s => s.toList.length) h
  simp only [toList_colonJoin, List.length_append, List.length_cons] at hlength
  omega

theorem exists_colonJoin {s : String} (h : ':' ∈ s.toList) : ∃ a b, s = colonJoin a b := by
  obtain ⟨as, bs, hs⟩ := List.append_of_mem h
  refine ⟨String.ofList as, String.ofList bs, String.toList_injective ?_⟩
  rw [toList_colonJoin, String.toList_ofList, String.toList_ofList, hs]

/-- `s.startswith(f"{a}:")`. -/
theorem startswith_colon_iff {s a : String} :
    startswith s (a ++ ":") = true ↔ ∃ b, s = colonJoin a b := by
  rw [startswith_iff, String.toList_append]
  constructor
  · rintro ⟨bs, hbs⟩
    refine ⟨String.ofList bs, String.toList_injective ?_⟩
    rw [toList_colonJoin, String.toList_ofList, ← hbs, List.append_assoc]
    rfl
  · rintro ⟨b, rfl⟩
    refine ⟨b.toList, ?_⟩
    rw [toList_colonJoin, List.append_assoc]
    rfl

end Py
