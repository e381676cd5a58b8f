import PyStreamAI.Deployment
import PyStreamAI.Machine

/-!
# A canary deployment on its own

The first promotion or rollback of a `CanaryDeployment` decides which version is current from then
on, and takes the canary version away (`versions_run`). Neither resets the traffic percentage, so a
request drawn below it afterwards gets `None` (`keepsTraffic_iff`).
-/

open Py Machine

namespace PyStreamAI

namespace CanaryDeployment

/-- One call on a canary deployment. -/
inductive Op
  | routeRequest (draw : Draw)
  | promoteCanary
  | rollbackCanary
  deriving DecidableEq

/-- The canary deployment after a call, whether or not the call raised. -/
def step (c : CanaryDeployment) : Op → CanaryDeployment
  | .routeRequest draw => (c.routeRequest draw).2
  | .promoteCanary => c.promoteCanary.2
  | .rollbackCanary => c.rollbackCanary.2

/-- The call ends the canary phase. -/
def Op.ends : Op → Bool
  | .routeRequest _ => false
  | .promoteCanary => true
  | .rollbackCanary => true

/-- Every request of the history gets a version: after the promotion the canary version, after the
rollback the one that was current. -/
structure KeepsTraffic (current canary : DeploymentVersion) (percent : ℚ) (tr : List Op) :
    Prop where
  served : ∀ pre draw, pre ++ [.routeRequest draw] <+: tr →
    ((run step (init current canary percent) pre).routeRequest draw).1 ≠ none
  promoted : ∀ pre draw, pre ++ [.routeRequest draw] <+: tr → .promoteCanary ∈ pre →
    ((run step (init current canary percent) pre).routeRequest draw).1 = some canary
  rolledBack : ∀ pre draw, pre ++ [.routeRequest draw] <+: tr → .rollbackCanary ∈ pre →
    ((run step (init current canary percent) pre).routeRequest draw).1 = some current

/-! ## Phases -/

/-- The current and the canary version after a call made while the canary is there; after none of
the calls that end the canary phase both are as they were. -/
def versionsAfter (current canary : DeploymentVersion) :
    Option Op → DeploymentVersion × Option DeploymentVersion
  | some .promoteCanary => (canary, none)
  | some .rollbackCanary => (current, none)
  | _ => (current, some canary)

/-- Ending the canary phase a second time changes nothing. -/
theorem step_of_none {c : CanaryDeployment} (h : c.canaryVersion = none) {op : Op}
    (hop : op.ends = true) : step c op = c := by
  cases op with
  | routeRequest draw => cases hop
  | promoteCanary =>
    show c.promoteCanary.2 = c
    unfold promoteCanary; rw [h]
  | rollbackCanary =>
    show c.rollbackCanary.2 = c
    unfold rollbackCanary; rw [h]

theorem canaryTrafficPercent_step (c : CanaryDeployment) (op : Op) :
    (step c op).canaryTrafficPercent = c.canaryTrafficPercent := by
  cases op with
  | routeRequest draw =>
    show (c.routeRequest draw).2.canaryTrafficPercent = _
    unfold routeRequest
    dsimp only
    split_ifs <;> rfl
  | promoteCanary =>
    show c.promoteCanary.2.canaryTrafficPercent = _
    unfold promoteCanary
    split <;> rfl
  | rollbackCanary =>
    show c.rollbackCanary.2.canaryTrafficPercent = _
    unfold rollbackCanary
    split <;> rfl

theorem versions_step_of_none {c : CanaryDeployment} (h : c.canaryVersion = none) (op : Op) :
    ((step c op).currentVersion, (step c op).canaryVersion) =
      (c.currentVersion, c.canaryVersion) := by
  cases hop : op.ends with
  | true => rw [step_of_none h hop]
  | false =>
    cases op with
    | routeRequest draw =>
      obtain ⟨hcur, hver⟩ := c.routeRequest_versions draw
      exact Prod.ext hcur hver
    | _ => cases hop

theorem versions_step_of_some {c : CanaryDeployment} {v : DeploymentVersion}
    (h : c.canaryVersion = some v) (op : Op) :
    ((step c op).currentVersion, (step c op).canaryVersion) =
      versionsAfter c.currentVersion v (some op) := by
  cases op with
  | routeRequest draw =>
    obtain ⟨hcur, hver⟩ := c.routeRequest_versions draw
    exact Prod.ext hcur (hver.trans h)
  | promoteCanary =>
    show (c.promoteCanary.2.currentVersion, c.promoteCanary.2.canaryVersion) = _
    unfold promoteCanary; rw [h]; rfl
  | rollbackCanary =>
    show (c.rollbackCanary.2.currentVersion, c.rollbackCanary.2.canaryVersion) = _
    unfold rollbackCanary; rw [h]; rfl

variable {current canary : DeploymentVersion} {percent : ℚ}

theorem versionsAfter_snd_of_ends {op : Op} (h : op.ends = true) :
    (versionsAfter current canary (some op)).2 = none := by
  cases op with
  | routeRequest draw => cases h
  | promoteCanary => rfl
  | rollbackCanary => rfl

theorem versionsAfter_of_not_ends {op : Op} (h : op.ends = false) :
    versionsAfter current canary (some op) = (current, some canary) := by
  cases op with
  | routeRequest draw => rfl
  | _ => cases h

theorem canaryTrafficPercent_run (tr : List Op) :
    (run step (init current canary percent) tr).canaryTrafficPercent = percent :=
  run_invariant (I := fun c => c.canaryTrafficPercent = percent) rfl
    (fun c h op => (canaryTrafficPercent_step c op).trans h) tr

/-- The first call that ends the canary phase decides the versions, whatever is called later. -/
theorem versions_run (tr : List Op) :
    ((run step (init current canary percent) tr).currentVersion,
      (run step (init current canary percent) tr).canaryVersion) =
        versionsAfter current canary (tr.find? Op.ends) := by
  induction tr using List.reverseRecOn with
  | nil => rfl
  | append_singleton tr op ih =>
    have hcur : (run step (init current canary percent) tr).currentVersion = _ :=
      congrArg Prod.fst ih
    have hver : (run step (init current canary percent) tr).canaryVersion = _ :=
      congrArg Prod.snd ih
    rw [run_snoc, List.find?_append]
    cases hfirst : tr.find? Op.ends with
    | some first =>
      rw [hfirst, versionsAfter_snd_of_ends (List.find?_some hfirst)] at hver
      rw [Option.some_or, ← hfirst, ← ih]
      exact versions_step_of_none hver op
    | none =>
      rw [hfirst] at hcur hver
      rw [Option.none_or, versions_step_of_some hver op, hcur, List.find?_singleton]
      cases hop : op.ends with
      | true => rfl
      | false => exact versionsAfter_of_not_ends hop

/-- What a request gets, from the call that ended the canary phase and the draw. -/
theorem routeRequest_run (pre : List Op) (draw : Draw) :
    ((run step (init current canary percent) pre).routeRequest draw).1 =
      if draw.1 * 100 < percent then (versionsAfter current canary (pre.find? Op.ends)).2
      else some (versionsAfter current canary (pre.find? Op.ends)).1 := by
  have hversions := @versions_run current canary percent pre
  rw [routeRequest_fst, canaryTrafficPercent_run, ← hversions]

/-! ## Histories with one end -/

/-- With at most one call that ends the canary phase, it is the first one. -/
theorem find?_ends_of_mem {tr pre : List Op} (hone : tr.countP Op.ends ≤ 1) (hpre : pre <+: tr)
    {op : Op} (hmem : op ∈ pre) (hop : op.ends = true) : pre.find? Op.ends = some op := by
  have hle : (pre.filter Op.ends).length ≤ 1 := by
    rw [← List.countP_eq_length_filter]
    exact (hpre.sublist.countP_le).trans hone
  have hin : op ∈ pre.filter Op.ends := List.mem_filter.mpr ⟨hmem, hop⟩
  rw [← List.head?_filter]
  cases hf : pre.filter Op.ends with
  | nil =>
    rw [hf] at hin
    cases hin
  | cons a rest =>
    rw [hf] at hin hle
    have hrest : rest = [] := List.eq_nil_of_length_eq_zero (by simpa using hle)
    rw [hrest, List.mem_singleton] at hin
    rw [hin]
    rfl

/-- **Canary traffic.** In a history with at most one promotion or rollback every request gets the
version it should exactly when no request after the promotion or rollback is drawn below the
traffic percentage. -/
theorem keepsTraffic_iff (current canary : DeploymentVersion) (percent : ℚ) {tr : List Op}
    (hone : tr.countP Op.ends ≤ 1) :
    KeepsTraffic current canary percent tr ↔
      ∀ pre draw, pre ++ [.routeRequest draw] <+: tr → (∃ op ∈ pre, op.ends = true) →
        percent ≤ draw.1 * 100 := by
  constructor
  · rintro h pre draw hpre ⟨op, hmem, hop⟩
    by_contra hlt
    apply h.served pre draw hpre
    rw [routeRequest_run, if_pos (not_le.mp hlt),
      find?_ends_of_mem hone ((List.prefix_append _ _).trans hpre) hmem hop]
    exact versionsAfter_snd_of_ends hop
  · intro h
    have hafter : ∀ pre draw op, pre ++ [.routeRequest draw] <+: tr → op ∈ pre → op.ends = true →
        ((run step (init current canary percent) pre).routeRequest draw).1 =
          some (versionsAfter current canary (some op)).1 := by
      intro pre draw op hpre hmem hop
      rw [routeRequest_run, if_neg (not_lt.mpr (h pre draw hpre ⟨op, hmem, hop⟩)),
        find?_ends_of_mem hone ((List.prefix_append _ _).trans hpre) hmem hop]
    refine ⟨fun pre draw hpre => ?_, fun pre draw hpre hmem => hafter pre draw _ hpre hmem rfl,
      fun pre draw hpre hmem => hafter pre draw _ hpre hmem rfl⟩
    by_cases hends : ∃ op ∈ pre, op.ends = true
    · obtain ⟨op, hmem, hop⟩ := hends
      rw [hafter pre draw op hpre hmem hop]
      exact Option.some_ne_none _
    · -- both versions are there before the end of the canary phase
      have hnone : pre.find? Op.ends = none :=
        List.find?_eq_none.mpr fun op hmem hop => hends ⟨op, hmem, hop⟩
      rw [routeRequest_run, hnone]
      split_ifs <;> exact Option.some_ne_none _

/-- A version of the model `m1` deployed at the start of 2026. -/
def versionOf (version : String) : DeploymentVersion :=
  { modelId := "m1", version, uri := "s3://models/" ++ version,
    timestamp := ⟨2026, 1, 1, 0, 0, 0, 0⟩ }

/-- 10 percent of canary traffic, promoted after one request; the next draw is 0.5. -/
theorem promoted_keepsTraffic :
    KeepsTraffic (versionOf "v1") (versionOf "v2") 10
      [.routeRequest ⟨0, by decide⟩, .promoteCanary, .routeRequest ⟨1 / 2, by decide +kernel⟩] := by
  refine (keepsTraffic_iff _ _ _ (by decide)).mpr fun pre draw hpre hends => ?_
  obtain ⟨post, hpost⟩ := hpre
  rcases pre with _ | ⟨a, _ | ⟨b, _ | ⟨c, pre⟩⟩⟩
  · obtain ⟨op, hmem, -⟩ := hends
    cases hmem
  · simp at hpost
  · simp only [List.cons_append, List.nil_append, List.cons.injEq, Op.routeRequest.injEq] at hpost
    rw [hpost.2.2.1]
    decide +kernel
  · simp at hpost

/-- After the promotion a request drawn below the old percentage gets `None`. -/
theorem promoted_loses :
    let c := run step (init (versionOf "v1") (versionOf "v2") 10) [.promoteCanary]
    c.currentVersion = versionOf "v2" ∧ (c.routeRequest ⟨0, by decide⟩).1 = none ∧
      ¬ KeepsTraffic (versionOf "v1") (versionOf "v2") 10
        [.promoteCanary, .routeRequest ⟨0, by decide⟩] := by
  have hnone : ((run step (init (versionOf "v1") (versionOf "v2") 10)
      [.promoteCanary]).routeRequest ⟨0, by decide⟩).1 = none := by decide +kernel
  exact ⟨by decide +kernel, hnone, fun h => h.served [.promoteCanary] _ List.prefix_rfl hnone⟩

end CanaryDeployment

end PyStreamAI
