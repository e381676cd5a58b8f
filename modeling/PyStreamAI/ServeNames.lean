import PyStreamAI.Platform

/-!
# The names of endpoints

A call of `serve` without a model id takes the name `model-n`, where `n` is the number of
deployments. Deployments are never removed, so no earlier default name is in the way; a name
`model-n` that was given explicitly is (`neverReplaces_iff`).
-/

open Py Machine

namespace PyStreamAI

namespace Session

variable {F M D : Type}

/-- The session after a call of `serve`, whether or not it raised. -/
def serveStep (s : Session F M D) (args : ServeArgs D) : Session F M D := (s.serve args).2

/-- The deployments of the session. -/
def deployments (s : Session F M D) : Dict String (Platform.Endpoint D) := s.platform.deployments

/-- The call returns: `Endpoint` accepts the model. -/
def Serves (args : ServeArgs D) : Prop := ∃ model, args.model = .ok model

/-- The call adds a name and leaves every deployment there is. -/
def AddsNew (s : Session F M D) (args : ServeArgs D) : Prop :=
  (∀ name ∈ s.deployments.keys,
      (s.serveStep args).deployments.get? name = s.deployments.get? name) ∧
    ∃ name, name ∉ s.deployments.keys ∧ name ∈ (s.serveStep args).deployments.keys

/-- Every call without a model id that returns adds a name and leaves every deployment there is. -/
def NeverReplaces (M : Type) (files : F) (tr : List (ServeArgs D)) : Prop :=
  ∀ pre args, pre ++ [args] <+: tr → args.modelId = none → Serves args →
    AddsNew (run serveStep (init files : Session F M D) pre) args

/-- No call without a model id that returns comes after one that was given the name it takes. -/
def NoClash (M : Type) (files : F) (tr : List (ServeArgs D)) : Prop :=
  ∀ pre args, pre ++ [args] <+: tr → args.modelId = none → Serves args →
    ∀ args' ∈ pre, Serves args' → args'.modelId ≠ some
      (defaultModelId (run serveStep (init files : Session F M D) pre).deployments.len)

/-! ## One call -/

theorem deployments_of_error {s : Session F M D} {args : ServeArgs D}
    (h : ¬ Serves args) : (s.serveStep args).deployments = s.deployments := by
  unfold serveStep serve
  cases hmodel : args.model with
  | error e => rfl
  | ok model => exact absurd ⟨model, hmodel⟩ h

theorem deployments_of_ok {s : Session F M D} {args : ServeArgs D} (h : Serves args) :
    ∃ endpoint, (s.serveStep args).deployments =
      s.deployments.set (s.modelIdFor args.modelId) endpoint := by
  obtain ⟨model, hmodel⟩ := h
  unfold serveStep serve
  rw [hmodel]
  exact ⟨_, rfl⟩

theorem addsNew_iff {s : Session F M D} {args : ServeArgs D} (hdefault : args.modelId = none)
    (h : Serves args) :
    AddsNew s args ↔ defaultModelId s.deployments.len ∉ s.deployments.keys := by
  obtain ⟨endpoint, hset⟩ := deployments_of_ok (s := s) h
  have hname : s.modelIdFor args.modelId = defaultModelId s.deployments.len := by
    rw [hdefault]
    rfl
  rw [hname] at hset
  unfold AddsNew
  rw [hset]
  constructor
  · rintro ⟨-, name, hnew, hmem⟩ hold
    rcases Dict.mem_keys_set.mp hmem with rfl | hmem
    · exact hnew hold
    · exact hnew hmem
  · intro hnew
    refine ⟨fun name hmem => ?_, _, hnew, Dict.mem_keys_set.mpr (Or.inl rfl)⟩
    rw [Dict.get?_set, if_neg]
    rintro rfl
    exact hnew hmem

/-! ## Runs -/

theorem len_le_serveStep (s : Session F M D) (args : ServeArgs D) :
    s.deployments.len ≤ (s.serveStep args).deployments.len := by
  by_cases h : Serves args
  · obtain ⟨endpoint, hset⟩ := deployments_of_ok (s := s) h
    rw [hset, Dict.len_set]
    split_ifs <;> omega
  · rw [deployments_of_error h]

/-- While there are at most `n` deployments, the name `model-n` was given explicitly or is new. -/
theorem explicit_of_mem {files : F} {pre : List (ServeArgs D)} {n : ℕ}
    (hlen : (run serveStep (init files : Session F M D) pre).deployments.len ≤ n)
    (hmem : defaultModelId n ∈ (run serveStep (init files : Session F M D) pre).deployments.keys) :
    ∃ args ∈ pre, Serves args ∧ args.modelId = some (defaultModelId n) := by
  induction pre using List.reverseRecOn with
  | nil => cases hmem
  | append_singleton pre args ih =>
    rw [run_snoc] at hlen hmem
    generalize hs : run serveStep (init files : Session F M D) pre = s at *
    by_cases hold : defaultModelId n ∈ s.deployments.keys
    · obtain ⟨args', hargs', h⟩ := ih ((len_le_serveStep s args).trans hlen) hold
      exact ⟨args', List.mem_append_left _ hargs', h⟩
    · by_cases h : Serves args
      · -- the last call set the name: by default it would have passed the count
        obtain ⟨endpoint, hset⟩ := deployments_of_ok (s := s) h
        rw [hset, Dict.mem_keys_set] at hmem
        have hname := hmem.resolve_right hold
        refine ⟨args, List.mem_append_right _ List.mem_cons_self, h, ?_⟩
        cases hid : args.modelId with
        | some name =>
          rw [hid] at hname
          exact congrArg some hname.symm
        | none =>
          rw [hid] at hname hset
          have hn : n = s.deployments.len := defaultModelId_inj.mp hname
          have hnew : s.modelIdFor none ∉ s.deployments.keys := hname ▸ hold
          rw [hset, Dict.len_set, if_neg hnew] at hlen
          omega
      · rw [deployments_of_error h] at hmem
        exact absurd hmem hold

theorem mem_keys_of_served {files : F} {pre : List (ServeArgs D)} {args : ServeArgs D}
    (hargs : args ∈ pre) (h : Serves args) {name : String}
    (hname : args.modelId = some name) :
    name ∈ (run serveStep (init files : Session F M D) pre).deployments.keys := by
  induction pre using List.reverseRecOn with
  | nil => cases hargs
  | append_singleton pre args' ih =>
    rw [run_snoc]
    rcases List.mem_append.mp hargs with hpre | hlast
    · by_cases h' : Serves args'
      · obtain ⟨endpoint, hset⟩ :=
          deployments_of_ok (s := run serveStep (init files : Session F M D) pre) h'
        rw [hset, Dict.mem_keys_set]
        exact Or.inr (ih hpre)
      · rw [deployments_of_error h']
        exact ih hpre
    · rw [← List.mem_singleton.mp hlast]
      obtain ⟨endpoint, hset⟩ :=
        deployments_of_ok (s := run serveStep (init files : Session F M D) pre) h
      rw [hset, Dict.mem_keys_set, hname]
      exact Or.inl rfl

/-- **Default names.** The calls without a model id never replace a deployment exactly when none of
them comes after a call that was given the name it takes. -/
theorem neverReplaces_iff (files : F) (tr : List (ServeArgs D)) :
    NeverReplaces M files tr ↔ NoClash M files tr := by
  unfold NeverReplaces NoClash
  refine forall_congr' fun pre => forall_congr' fun args => imp_congr_right fun _ =>
    forall_congr' fun hdefault => forall_congr' fun h => ?_
  rw [addsNew_iff hdefault h]
  constructor
  · intro hnew args' hargs' h' hname
    exact hnew (mem_keys_of_served hargs' h' hname)
  · intro hclash hmem
    obtain ⟨args', hargs', h', hname⟩ := explicit_of_mem le_rfl hmem
    exact hclash args' hargs' h' hname

/-- An endpoint with an explicit name in the shape of the next default one, and one without. -/
def namedLikeDefault : List (ServeArgs ℕ) :=
  [{ model := .ok 1, modelId := some "model-1" }, { model := .ok 2 }]

theorem namedLikeDefault_replaces :
    let s : Session Unit Unit ℕ := run serveStep (init ()) (namedLikeDefault.take 1)
    let s' : Session Unit Unit ℕ := run serveStep (init ()) namedLikeDefault
    (s.deployments.get? "model-1").map Platform.Endpoint.model = some 1 ∧
      (s'.deployments.get? "model-1").map Platform.Endpoint.model = some 2 ∧
      s'.deployments.keys = ["model-1"] ∧ ¬ NeverReplaces Unit () namedLikeDefault := by
  refine ⟨by decide +kernel, by decide +kernel, by decide +kernel, fun h => ?_⟩
  have hadds := h (namedLikeDefault.take 1) { model := .ok 2 } List.prefix_rfl rfl ⟨2, rfl⟩
  rw [addsNew_iff rfl ⟨2, rfl⟩] at hadds
  revert hadds
  decide +kernel

end Session

end PyStreamAI
