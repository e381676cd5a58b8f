import Mathlib.Data.List.Forall2
import PyStreamAI.Py.Act

/-!
# Traces of calls to other code

The state is the trace of the calls made so far. Other code answers each call, or raises, as it likes
after what happened so far. Calls that are made one after the other leave a part of the list in the
trace: all of it, or what comes before a call that raised, and that call (`forEach_tell`).
-/

namespace Py

/-- A call with the answer. -/
structure Exchange (C : Type) where
  call : C
  reply : Except Exn Unit

namespace Exchange

variable {C : Type}

/-- A call that did not raise. -/
def ok (call : C) : Exchange C := ⟨call, .ok ()⟩

/-- The call, if it did not raise. -/
def done? (e : Exchange C) : Option C :=
  match e.reply with
  | .ok () => some e.call
  | .error _ => none

/-- The calls that did not raise. -/
def done (trace : List (Exchange C)) : List C := trace.filterMap done?

theorem done_append (trace trace' : List (Exchange C)) :
    done (trace ++ trace') = done trace ++ done trace' := List.filterMap_append

theorem done_map_ok (calls : List C) : done (calls.map ok) = calls := by
  unfold done
  rw [List.filterMap_map]
  exact List.filterMap_some

/-- What the calls leave: all of them, or one of them raised and the later ones were not made. -/
inductive Block (calls : List C) : List (Exchange C) → Prop
  | complete : Block calls (calls.map ok)
  | raised (made : List C) (call : C) (e : Exn) (h : made ++ [call] <+: calls) :
      Block calls (made.map ok ++ [⟨call, .error e⟩])

/-- Every call of the block was made without raising. -/
def Complete (calls : List C) (block : List (Exchange C)) : Prop := done block = calls

instance [DecidableEq C] (calls : List C) (block : List (Exchange C)) :
    Decidable (Complete calls block) := inferInstanceAs (Decidable (done block = calls))

theorem done_raised (made : List C) (call : C) (e : Exn) :
    done (made.map ok ++ [⟨call, .error e⟩]) = made := by
  rw [done_append, done_map_ok]
  exact List.append_nil made

/-- A block that is not complete lacks the last call at least. -/
theorem Block.done_cases {calls : List C} {block : List (Exchange C)} (h : Block calls block) :
    Complete calls block ∨ ¬ Complete calls block ∧ done block <+: calls.dropLast := by
  cases h with
  | complete => exact .inl (done_map_ok calls)
  | raised made call e h =>
    unfold Complete
    rw [done_raised]
    obtain ⟨rest, rfl⟩ := h
    refine .inr ⟨fun heq => ?_, ?_⟩
    · have hlen := congrArg List.length heq
      simp only [List.length_append, List.length_singleton] at hlen
      omega
    · rw [List.append_assoc, List.dropLast_append_of_ne_nil (by simp)]
      exact List.prefix_append made _

end Exchange

namespace Act

open Exchange

variable {C : Type} (answer : List (Exchange C) → C → Except Exn Unit)

/-- One call. -/
def tell (call : C) : Act (List (Exchange C)) Unit := fun trace =>
  (answer trace call, trace ++ [⟨call, answer trace call⟩])

/-- What the calls leave in the trace, and how they end. -/
theorem forEach_tell (calls : List C) (trace : List (Exchange C)) :
    ∃ block, Block calls block ∧ (forEach (tell answer) calls trace).2 = trace ++ block ∧
      ((forEach (tell answer) calls trace).1 = .ok () ∧ Complete calls block ∨
        (∃ e, (forEach (tell answer) calls trace).1 = .error e) ∧ ¬ Complete calls block) := by
  induction calls generalizing trace with
  | nil => exact ⟨[], .complete, (List.append_nil trace).symm, .inl ⟨rfl, rfl⟩⟩
  | cons call calls ih =>
    cases hanswer : answer trace call with
    | error e =>
      have htell : tell answer call trace = (.error e, trace ++ [⟨call, .error e⟩]) := by
        unfold tell
        rw [hanswer]
      refine ⟨[⟨call, .error e⟩], .raised [] call e (by simp), ?_, .inr ⟨⟨e, ?_⟩, ?_⟩⟩
      · exact congrArg Prod.snd (bind_of_error htell)
      · exact congrArg Prod.fst (bind_of_error htell)
      · rintro ⟨⟩
    | ok u =>
      have htell : tell answer call trace = (.ok (), trace ++ [ok call]) := by
        unfold tell
        rw [hanswer]
        rfl
      have hbind : forEach (tell answer) (call :: calls) trace =
        forEach (tell answer) calls (trace ++ [ok call]) := bind_of_ok htell
      obtain ⟨block, hblock, htrace, hend⟩ := ih (trace ++ [ok call])
      have hdone : Complete (call :: calls) (ok call :: block) ↔ Complete calls block := by
        show call :: done block = call :: calls ↔ _
        rw [List.cons_inj_right]
        rfl
      refine ⟨ok call :: block, ?_, ?_, ?_⟩
      · cases hblock with
        | complete => exact .complete
        | raised made c e h =>
          exact .raised (call :: made) c e (List.cons_prefix_cons.mpr ⟨rfl, h⟩)
      · rw [hbind, htrace, List.append_assoc]
        rfl
      · rw [hbind, hdone]
        exact hend

end Act

end Py
