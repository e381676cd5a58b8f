import Mathlib.Order.Defs.Unbundled
import Mathlib.Tactic.SplitIfs
import PyStreamAI.Py.Basic

/-!
# Effects with exceptions

An `Act` changes a state and returns or raises; what it changed before raising stays. `orElse` is a
handler for `Exception` that lets a `BaseException` pass, and `orElseOn` one for some classes of
`Exception`. What each part of an act keeps, the act keeps (`Keeps`), a transitive relation that each
part stays in relates its ends (`Within`), and an act whose parts raise no `BaseException` always
returns once it is handled (`Mild.orElse`).
-/

namespace Py

/-- A computation on a state `σ` that returns an `α` or raises. -/
def Act (σ : Type*) (α : Type) := σ → Except Exn α × σ

namespace Act

variable {σ : Type*} {α β : Type}

instance : Monad (Act σ) where
  pure a s := (.ok a, s)
  bind x f s :=
    match x s with
    | (.ok a, s) => f a s
    | (.error e, s) => (.error e, s)

/-- `try: x; except Exception: return default`. -/
def orElse (x : Act σ α) (default : α) : Act σ α := fun s =>
  match x s with
  | (.ok a, s) => (.ok a, s)
  | (.error (.exception _), s) => (.ok default, s)
  | (.error (.base e), s) => (.error (.base e), s)

/-- `try: x; except C: return default`, where `catches` tells the exceptions of the class `C`. -/
def orElseOn (catches : Error → Bool) (x : Act σ α) (default : α) : Act σ α := fun s =>
  match x s with
  | (.ok a, s) => (.ok a, s)
  | (.error (.exception e), s) => (if catches e then .ok default else .error (.exception e), s)
  | (.error (.base e), s) => (.error (.base e), s)

/-- `if not p: return default`, and else `x`. -/
def when (p : σ → Bool) (x : Act σ α) (default : α) : Act σ α := fun s =>
  if p s then x s else (.ok default, s)

/-- `for b in bs: body(b)`. -/
def forEach {β : Type*} (body : β → Act σ Unit) : List β → Act σ Unit
  | [] => pure ()
  | b :: bs => do
    body b
    forEach body bs

variable {x : Act σ α} {f : α → Act σ β}

theorem bind_of_ok {s s' : σ} {a : α} (h : x s = (.ok a, s')) : (x >>= f) s = f a s' := by
  show (match x s with | (.ok a, s) => f a s | (.error e, s) => (.error e, s)) = _
  rw [h]

theorem bind_of_error {s s' : σ} {e : Exn} (h : x s = (.error e, s')) :
    (x >>= f) s = (.error e, s') := by
  show (match x s with | (.ok a, s) => f a s | (.error e, s) => (.error e, s)) = _
  rw [h]

@[simp] theorem snd_orElse (x : Act σ α) (default : α) (s : σ) :
    (x.orElse default s).2 = (x s).2 := by
  unfold orElse
  rcases x s with ⟨(_ | _) | _, s'⟩ <;> rfl

@[simp] theorem snd_orElseOn (catches : Error → Bool) (x : Act σ α) (default : α) (s : σ) :
    (x.orElseOn catches default s).2 = (x s).2 := by
  unfold orElseOn
  rcases x s with ⟨(_ | _) | _, s'⟩ <;> rfl

theorem snd_bind_pure (x : Act σ α) (a : α → β) (s : σ) :
    ((x >>= fun b => Pure.pure (a b)) s).2 = (x s).2 := by
  rcases hr : x s with ⟨e | b, s'⟩
  · rw [bind_of_error hr]
  · rw [bind_of_ok hr]
    rfl

/-! ## What an act keeps -/

/-- The act leads from `P` to `P`, however it ends. -/
def Keeps (P : σ → Prop) (x : Act σ α) : Prop := ∀ s, P s → P (x s).2

variable {P : σ → Prop}

theorem Keeps.pure (a : α) : Keeps P (Pure.pure a : Act σ α) := fun _ hs => hs

/-- Where the first act leads to `P` from one state, so does the whole. -/
theorem bind_keeps {s : σ} (hs : P (x s).2) (hf : ∀ a, (f a).Keeps P) : P ((x >>= f) s).2 := by
  rcases hr : x s with ⟨e | a, s'⟩ <;> rw [hr] at hs
  · rw [bind_of_error hr]
    exact hs
  · rw [bind_of_ok hr]
    exact hf a s' hs

theorem Keeps.bind (hx : x.Keeps P) (hf : ∀ a, (f a).Keeps P) : (x >>= f).Keeps P :=
  fun s hs => bind_keeps (hx s hs) hf

theorem Keeps.orElse (hx : x.Keeps P) (default : α) : (x.orElse default).Keeps P := by
  intro s hs
  rw [snd_orElse]
  exact hx s hs

theorem Keeps.orElseOn (hx : x.Keeps P) (catches : Error → Bool) (default : α) :
    (x.orElseOn catches default).Keeps P := by
  intro s hs
  rw [snd_orElseOn]
  exact hx s hs

theorem Keeps.when (hx : x.Keeps P) (p : σ → Bool) (default : α) : (x.when p default).Keeps P := by
  intro s hs
  unfold Act.when
  split_ifs
  · exact hx s hs
  · exact hs

theorem Keeps.forEach {β : Type*} {body : β → Act σ Unit} {bs : List β}
    (h : ∀ b ∈ bs, (body b).Keeps P) : (Act.forEach body bs).Keeps P := by
  induction bs with
  | nil => exact .pure ()
  | cons b bs ih =>
    exact (h b List.mem_cons_self).bind fun _ => ih fun c hc => h c (List.mem_cons_of_mem b hc)

/-! ## How an act relates its ends -/

/-- The states before and after the act are related, however it ends. -/
def Within (R : σ → σ → Prop) (x : Act σ α) : Prop := ∀ s, R s (x s).2

variable {R : σ → σ → Prop}

theorem Within.pure [Std.Refl R] (a : α) : Within R (Pure.pure a : Act σ α) := fun s => refl_of R s

theorem Within.bind [IsTrans σ R] (hx : x.Within R) (hf : ∀ a, (f a).Within R) :
    (x >>= f).Within R := by
  intro s
  have hnext := hx s
  rcases hr : x s with ⟨e | a, s'⟩ <;> rw [hr] at hnext
  · rw [bind_of_error hr]
    exact hnext
  · rw [bind_of_ok hr]
    exact trans_of R hnext (hf a s')

theorem Within.orElse (hx : x.Within R) (default : α) : (x.orElse default).Within R := by
  intro s
  rw [snd_orElse]
  exact hx s

theorem Within.orElseOn (hx : x.Within R) (catches : Error → Bool) (default : α) :
    (x.orElseOn catches default).Within R := by
  intro s
  rw [snd_orElseOn]
  exact hx s

theorem Within.when [Std.Refl R] (hx : x.Within R) (p : σ → Bool) (default : α) :
    (x.when p default).Within R := by
  intro s
  unfold Act.when
  split_ifs
  · exact hx s
  · exact refl_of R s

theorem Within.forEach [Std.Refl R] [IsTrans σ R] {β : Type*} {body : β → Act σ Unit} {bs : List β}
    (h : ∀ b ∈ bs, (body b).Within R) : (Act.forEach body bs).Within R := by
  induction bs with
  | nil => exact .pure ()
  | cons b bs ih =>
    exact (h b List.mem_cons_self).bind fun _ => ih fun c hc => h c (List.mem_cons_of_mem b hc)

/-! ## What an act raises -/

/-- The act raises no `BaseException`. -/
def Mild (x : Act σ α) : Prop := ∀ s e, (x s).1 ≠ .error (.base e)

theorem Mild.pure (a : α) : Mild (Pure.pure a : Act σ α) := fun _ _ h => by cases h

theorem Mild.bind (hx : x.Mild) (hf : ∀ a, (f a).Mild) : (x >>= f).Mild := by
  intro s e
  have hmild := hx s e
  rcases hr : x s with ⟨e' | a, s'⟩ <;> rw [hr] at hmild
  · rw [bind_of_error hr]
    exact fun he => hmild (by rw [Except.error.inj he])
  · rw [bind_of_ok hr]
    exact hf a s' e

theorem Mild.forEach {β : Type*} {body : β → Act σ Unit} {bs : List β}
    (h : ∀ b ∈ bs, (body b).Mild) : (Act.forEach body bs).Mild := by
  induction bs with
  | nil => exact .pure ()
  | cons b bs ih =>
    exact (h b List.mem_cons_self).bind fun _ => ih fun c hc => h c (List.mem_cons_of_mem b hc)

/-- What a handler guards does not raise. -/
theorem Mild.orElse (hx : x.Mild) (default : α) (s : σ) : ∃ a, (x.orElse default s).1 = .ok a := by
  have hmild := hx s
  unfold Act.orElse
  rcases hr : x s with ⟨(e | e) | a, s'⟩ <;> rw [hr] at hmild
  · exact ⟨default, rfl⟩
  · exact absurd rfl (hmild e)
  · exact ⟨a, rfl⟩

theorem ok_when (hx : ∀ s, ∃ a, (x s).1 = .ok a) (p : σ → Bool) (default : α) (s : σ) :
    ∃ a, (x.when p default s).1 = .ok a := by
  unfold Act.when
  split_ifs
  · exact hx s
  · exact ⟨default, rfl⟩

end Act

end Py
