import PyStreamAI.Py.Trace

/-!
# What an act adds to a trace

`Adds x Q`: however other code answers, `x` extends the trace, and `Q` holds of how it ends and of
what it added. One rule for each way to build an act: to show `Q` of a whole, show of its first part
that what it adds leaves `Q` to the rest.
-/

namespace Py

namespace Act

section Handlers

variable {σ : Type*} {α : Type}

/-- `raise e`. -/
def raise (e : Exn) : Act σ α := fun s => (.error e, s)

/-- Look at the state. -/
def look (f : σ → α) : Act σ α := fun s => (.ok (f s), s)

/-- `try: x; finally: cleanup`. -/
def ensure (x : Act σ α) (cleanup : Act σ Unit) : Act σ α := fun s =>
  let (r, s) := x s
  match cleanup s with
  | (.ok (), s) => (r, s)
  | (.error e, s) => (.error e, s)

end Handlers

variable {C α β : Type}

/-- `Q` of how the act ends and what it adds to the trace, whatever the trace. -/
def Adds (x : Act (List (Exchange C)) α) (Q : Except Exn α → List (Exchange C) → Prop) : Prop :=
  ∀ trace, ∃ block, (x trace).2 = trace ++ block ∧ Q (x trace).1 block

variable {Q : Except Exn α → List (Exchange C) → Prop} {x : Act (List (Exchange C)) α}

theorem Adds.pure {a : α} (h : Q (.ok a) []) : Adds (Pure.pure a : Act (List (Exchange C)) α) Q :=
  fun trace => ⟨[], (List.append_nil trace).symm, h⟩

theorem Adds.raise {e : Exn} (h : Q (.error e) []) : Adds (Act.raise e) Q :=
  fun trace => ⟨[], (List.append_nil trace).symm, h⟩

theorem Adds.look {f : List (Exchange C) → α} (h : ∀ a, Q (.ok a) []) : Adds (Act.look f) Q :=
  fun trace => ⟨[], (List.append_nil trace).symm, h _⟩

theorem Adds.tell {answer : List (Exchange C) → C → Except Exn Unit} {call : C}
    {Q : Except Exn Unit → List (Exchange C) → Prop} (h : ∀ r, Q r [⟨call, r⟩]) :
    Adds (Act.tell answer call) Q :=
  fun _ => ⟨_, rfl, h _⟩

theorem Adds.mono {P : Except Exn α → List (Exchange C) → Prop} (hx : Adds x P)
    (h : ∀ r block, P r block → Q r block) : Adds x Q := by
  intro trace
  obtain ⟨block, hblock, hP⟩ := hx trace
  exact ⟨block, hblock, h _ _ hP⟩

/-- What is left to the acts that go on with what `x` returned. -/
def Then (f : α → Act (List (Exchange C)) β) (Q : Except Exn β → List (Exchange C) → Prop) :
    Except Exn α → List (Exchange C) → Prop
  | .error e, block => Q (.error e) block
  | .ok a, block => Adds (f a) fun r block' => Q r (block ++ block')

@[simp] theorem then_ok {f : α → Act (List (Exchange C)) β}
    {Q : Except Exn β → List (Exchange C) → Prop} {a : α} {block : List (Exchange C)} :
    Then f Q (.ok a) block ↔ Adds (f a) fun r block' => Q r (block ++ block') := Iff.rfl

@[simp] theorem then_error {f : α → Act (List (Exchange C)) β}
    {Q : Except Exn β → List (Exchange C) → Prop} {e : Exn} {block : List (Exchange C)} :
    Then f Q (.error e) block ↔ Q (.error e) block := Iff.rfl

theorem Adds.bind {f : α → Act (List (Exchange C)) β} {Q : Except Exn β → List (Exchange C) → Prop}
    (hx : Adds x (Then f Q)) : Adds (x >>= f) Q := by
  intro trace
  obtain ⟨block, hblock, hQ⟩ := hx trace
  rcases hr : x trace with ⟨e | a, trace'⟩
  · rw [hr] at hblock hQ
    rw [bind_of_error hr]
    exact ⟨block, hblock, hQ⟩
  · rw [hr] at hblock hQ
    obtain ⟨block', hblock', hQ'⟩ := hQ trace'
    rw [bind_of_ok hr]
    refine ⟨block ++ block', ?_, hQ'⟩
    rw [hblock', show trace' = trace ++ block from hblock, List.append_assoc]

/-- What is left to a handler that returns `default`. -/
def Handled (default : α) (Q : Except Exn α → List (Exchange C) → Prop) :
    Except Exn α → List (Exchange C) → Prop
  | .ok a, block => Q (.ok a) block
  | .error (.exception _), block => Q (.ok default) block
  | .error (.base e), block => Q (.error (.base e)) block

theorem Adds.orElse {default : α} (hx : Adds x (Handled default Q)) : Adds (x.orElse default) Q := by
  intro trace
  obtain ⟨block, hblock, hQ⟩ := hx trace
  refine ⟨block, (snd_orElse x default trace).trans hblock, ?_⟩
  unfold Act.orElse
  rcases hr : x trace with ⟨(e | e) | a, trace'⟩ <;> rw [hr] at hQ <;> exact hQ

theorem Adds.ensure {cleanup : Act (List (Exchange C)) Unit} (hx : Adds x fun r block =>
    Adds cleanup fun r' block' =>
      match r' with
      | .ok () => Q r (block ++ block')
      | .error e => Q (.error e) (block ++ block')) : Adds (x.ensure cleanup) Q := by
  intro trace
  obtain ⟨block, hblock, hcleanup⟩ := hx trace
  unfold Act.ensure
  rcases hr : x trace with ⟨r, trace'⟩
  rw [hr] at hblock hcleanup
  obtain ⟨block', hblock', hQ⟩ := hcleanup trace'
  have htrace : trace' ++ block' = trace ++ (block ++ block') := by
    rw [show trace' = trace ++ block from hblock, List.append_assoc]
  dsimp only
  rcases hc : cleanup trace' with ⟨e | u, trace''⟩
  · rw [hc] at hblock' hQ
    exact ⟨block ++ block', Eq.trans hblock' htrace, hQ⟩
  · rw [hc] at hblock' hQ
    exact ⟨block ++ block', Eq.trans hblock' htrace, hQ⟩

end Act

end Py
