import PyStreamAI.RequestScheduler

/-!
# Request counters and user quotas

Each counter of `request_counts` is the number of accepted requests that name its key as their
model plus the number that have it as their user key (`counts_run`). The two uses of a key fall
together on the reserved model ids `"user:" + u`, so all counters are exact only while no request
of a user and none for such a model is accepted (`exactCounts_iff`). The counters of the users, and
with them the quota test, are exact without the latter alone (`quota_of_unreserved`); then a user is
refused exactly when the quota was reached over the whole history, whatever the clock says.
-/

open Py Machine

namespace PyStreamAI

namespace RequestScheduler

/-! ## Accepted requests -/

/-- The number of accepted requests of the user `u`. -/
def acceptedBy (acc : List (ScheduledRequest × ℤ)) (u : String) : ℕ :=
  acc.countP fun p => p.1.user? = some u

/-- The number of accepted requests for the model `m`. -/
def acceptedFor (acc : List (ScheduledRequest × ℤ)) (m : String) : ℕ :=
  acc.countP fun p => p.1.modelId = m

/-- The number of requests of `u` accepted within the 60 seconds before `now`. -/
def acceptedWithinMinute (acc : List (ScheduledRequest × ℤ)) (u : String) (now : ℤ) : ℕ :=
  acc.countP fun p => p.1.user? = some u ∧ p.2 ≤ now ∧ now - p.2 ≤ 60 * 1000000

theorem acceptedWithinMinute_le (acc : List (ScheduledRequest × ℤ)) (u : String) (now : ℤ) :
    acceptedWithinMinute acc u now ≤ acceptedBy acc u := by
  refine List.countP_mono_left fun p _ h => ?_
  rw [decide_eq_true_eq] at h ⊢
  exact h.1

/-- A model id that is also the key of a user's counter. -/
def Reserved (m : String) : Prop := ∃ u, u ≠ "" ∧ m = userKey u

theorem user?_eq_some {r : ScheduledRequest} {u : String} :
    r.user? = some u ↔ r.userId = some u ∧ u ≠ "" := by
  simp [ScheduledRequest.user?, Option.filter_eq_some_iff]

theorem userKey_inj {u v : String} : userKey u = userKey v ↔ u = v := String.append_right_inj _

theorem user?_ne_empty {r : ScheduledRequest} {u : String} (h : r.user? = some u) : u ≠ "" :=
  (user?_eq_some.mp h).2

/-! ## What the counters hold -/

/-- Every counter is the number of accepted requests for its key as a model, plus the number of
accepted requests whose user has it as counter key. -/
def Counts (acc : List (ScheduledRequest × ℤ)) (counts : Dict String ℕ) : Prop :=
  ∀ k, counts.getD k 0 =
    acceptedFor acc k + acc.countP fun p => p.1.user?.map userKey = some k

theorem counts_enqueue {acc : List (ScheduledRequest × ℤ)} {s : RequestScheduler}
    {r : ScheduledRequest} (h : Counts acc s.requestCounts) (ha : s.Accepts r) (now : ℤ) :
    Counts (acc ++ [(r, now)]) (s.enqueue r).2.requestCounts := by
  intro k
  have hk := h k
  unfold acceptedFor at hk ⊢
  rw [requestCounts_enqueue ha, List.countP_append, List.countP_append, List.countP_singleton,
    List.countP_singleton]
  cases hu : r.user? with
  | none =>
    simp only [getD_bump, hk, Option.map_none, decide_eq_true_eq, reduceCtorEq, if_false]
    omega
  | some u =>
    simp only [getD_bump, hk, Option.map_some, Option.some.injEq, decide_eq_true_eq]
    omega

theorem counts_step {s₀ : RequestScheduler} {tr : List Op} {s : RequestScheduler}
    (hs : s = run step s₀ tr) (h : Counts (accepted s₀ tr) s.requestCounts) (op : Op) :
    Counts (accepted s₀ (tr ++ [op])) (step s op).requestCounts := by
  rw [accepted_snoc, ← hs]
  cases op with
  | enqueue r now =>
    by_cases ha : s.Accepts r
    · rw [emitAccepted_enqueue_of ha]
      exact counts_enqueue h ha now
    · rw [emitAccepted_enqueue_of_not ha, List.append_nil]
      show Counts _ (s.enqueue r).2.requestCounts
      rw [enqueue_snd_of_not ha]
      exact h
  | dequeue clock => exact (List.append_nil (accepted s₀ tr)).symm ▸ h
  | peek => exact (List.append_nil (accepted s₀ tr)).symm ▸ h
  | setUserQuota u q => exact (List.append_nil (accepted s₀ tr)).symm ▸ h

/-- The counters after any history that starts with empty ones. -/
theorem counts_run (maxQueueSize : ℤ) (tr : List Op) :
    Counts (accepted (init maxQueueSize) tr) (run step (init maxQueueSize) tr).requestCounts := by
  induction tr using List.reverseRecOn with
  | nil => intro k; rfl
  | append_singleton tr op ih =>
    rw [run_snoc]
    exact counts_step rfl ih op

/-- A user's counter is over by the accepted requests for the reserved model id. -/
theorem Counts.userKey {acc : List (ScheduledRequest × ℤ)} {counts : Dict String ℕ}
    (h : Counts acc counts) (u : String) :
    counts.getD (userKey u) 0 =
      acceptedFor acc (RequestScheduler.userKey u) + acceptedBy acc u := by
  rw [h]
  congr 1
  unfold acceptedBy
  congr 1
  funext p
  cases hp : p.1.user? with
  | none => simp
  | some v => simp [userKey_inj]

/-! ## Quotas -/

/-- The quotas a history sets for `u`. -/
def quotasSet (u : String) (tr : List Op) : List ℤ :=
  tr.filterMap fun
    | .setUserQuota v q => if v = u then some q else none
    | _ => none

/-- The quota in force for `u` after a history: the last one set, by default 100. -/
def quotaIn (u : String) (tr : List Op) : ℤ := (quotasSet u tr).getLast?.getD 100

theorem quotasSet_snoc (u : String) (tr : List Op) (op : Op) :
    quotasSet u (tr ++ [op]) = quotasSet u tr ++ quotasSet u [op] := List.filterMap_append

theorem userQuotas_enqueue (s : RequestScheduler) (r : ScheduledRequest) :
    (s.enqueue r).2.userQuotas = s.userQuotas := by
  unfold enqueue
  split_ifs <;> rfl

theorem quota_run (maxQueueSize : ℤ) (u : String) (tr : List Op) :
    (run step (init maxQueueSize) tr).quota u = quotaIn u tr := by
  induction tr using List.reverseRecOn with
  | nil => rfl
  | append_singleton tr op ih =>
    rw [run_snoc]
    unfold quotaIn at ih ⊢
    rw [quotasSet_snoc]
    cases op with
    | enqueue r now =>
      show Dict.getD _ u 100 = _
      rw [step, userQuotas_enqueue, show quotasSet u [.enqueue r now] = [] from rfl,
        List.append_nil]
      exact ih
    | dequeue clock =>
      rw [show quotasSet u [.dequeue clock] = [] from rfl, List.append_nil]
      exact ih
    | peek =>
      rw [show quotasSet u [.peek] = [] from rfl, List.append_nil]
      exact ih
    | setUserQuota v q =>
      show Dict.getD (Dict.set _ v q) u 100 = _
      rw [Dict.getD_set]
      by_cases h : u = v
      · rw [if_pos h]
        simp [quotasSet, h]
      · rw [if_neg h, show quotasSet u [.setUserQuota v q] = [] by simp [quotasSet, Ne.symm h],
          List.append_nil]
        exact ih

/-! ## Exact counters -/

/-- After the history `tr` each user's and each model's counter is the number of accepted
requests of that user and for that model, and the quota test of a user looks at that user's
accepted requests and quota alone. -/
structure ExactCounts (maxQueueSize : ℤ) (tr : List Op) : Prop where
  user : ∀ u, u ≠ "" → (run step (init maxQueueSize) tr).requestCounts.getD (userKey u) 0 =
    acceptedBy (accepted (init maxQueueSize) tr) u
  model : ∀ m, (run step (init maxQueueSize) tr).requestCounts.getD m 0 =
    acceptedFor (accepted (init maxQueueSize) tr) m
  quota : ∀ u, u ≠ "" → ((run step (init maxQueueSize) tr).checkUserQuota u = true ↔
    (acceptedBy (accepted (init maxQueueSize) tr) u : ℤ) < quotaIn u tr)

/-- A request without a user, for a model whose id is not the key of a user's counter. -/
def Plain (r : ScheduledRequest) : Prop := r.user? = none ∧ ¬ Reserved r.modelId

theorem acceptedFor_pos {acc : List (ScheduledRequest × ℤ)} {m : String} :
    0 < acceptedFor acc m ↔ ∃ p ∈ acc, p.1.modelId = m := by
  simp [acceptedFor, List.countP_pos_iff]

theorem acceptedBy_pos {acc : List (ScheduledRequest × ℤ)} {u : String} :
    0 < acceptedBy acc u ↔ ∃ p ∈ acc, p.1.user? = some u := by
  simp [acceptedBy, List.countP_pos_iff]

/-- Without accepted requests for reserved model ids the users' counters are exact. -/
theorem user_of_unreserved {maxQueueSize : ℤ} {tr : List Op}
    (h : ∀ p ∈ accepted (init maxQueueSize) tr, ¬ Reserved p.1.modelId) {u : String} (hu : u ≠ "") :
    (run step (init maxQueueSize) tr).requestCounts.getD (userKey u) 0 =
      acceptedBy (accepted (init maxQueueSize) tr) u := by
  have hzero : ¬ 0 < acceptedFor (accepted (init maxQueueSize) tr) (userKey u) := by
    rw [acceptedFor_pos]
    rintro ⟨p, hp, hm⟩
    exact h p hp ⟨u, hu, hm⟩
  rw [(counts_run maxQueueSize tr).userKey]
  omega

/-- The quota test then compares the user's accepted requests with the quota. -/
theorem quota_of_unreserved {maxQueueSize : ℤ} {tr : List Op}
    (h : ∀ p ∈ accepted (init maxQueueSize) tr, ¬ Reserved p.1.modelId) {u : String} (hu : u ≠ "") :
    (run step (init maxQueueSize) tr).checkUserQuota u = true ↔
      (acceptedBy (accepted (init maxQueueSize) tr) u : ℤ) < quotaIn u tr := by
  unfold checkUserQuota
  rw [user_of_unreserved h hu, quota_run, decide_eq_true_eq]

/-- The counters are exact exactly when every accepted request is plain: a user's request also
counts for the model with the id of the user's key, and a request for such a model also counts for
the user. -/
theorem exactCounts_iff_plain (maxQueueSize : ℤ) (tr : List Op) :
    ExactCounts maxQueueSize tr ↔ ∀ p ∈ accepted (init maxQueueSize) tr, Plain p.1 := by
  have hc := counts_run maxQueueSize tr
  constructor
  · intro h p hp
    constructor
    · cases hu : p.1.user? with
      | none => rfl
      | some u =>
        have hpos : 0 < acceptedBy (accepted (init maxQueueSize) tr) u :=
          acceptedBy_pos.mpr ⟨p, hp, hu⟩
        have hmodel := h.model (userKey u)
        rw [hc.userKey] at hmodel
        omega
    · rintro ⟨u, hu, hm⟩
      have hpos : 0 < acceptedFor (accepted (init maxQueueSize) tr) (userKey u) :=
        acceptedFor_pos.mpr ⟨p, hp, hm⟩
      have huser := h.user u hu
      rw [hc.userKey] at huser
      omega
  · intro h
    have hun : ∀ p ∈ accepted (init maxQueueSize) tr, ¬ Reserved p.1.modelId :=
      fun p hp => (h p hp).2
    refine ⟨fun u hu => user_of_unreserved hun hu, fun m => ?_, fun u hu =>
      quota_of_unreserved hun hu⟩
    have hzero : ((accepted (init maxQueueSize) tr).countP
        fun p => p.1.user?.map RequestScheduler.userKey = some m) = 0 := by
      refine List.countP_eq_zero.mpr fun p hp => ?_
      rw [(h p hp).1]
      simp
    rw [hc, hzero, Nat.add_zero]

/-- The calls that keep the counters exact: all but an `enqueue` that lets a request through that is
not plain. -/
def PlainCall (s : RequestScheduler) (op : Op) : Prop :=
  ∀ r now, op = .enqueue r now → s.Accepts r → Plain r

/-- One more call keeps the accepted requests plain exactly when it is such a call. -/
theorem plainCall_iff {s₀ : RequestScheduler} {tr : List Op}
    (h : ∀ p ∈ accepted s₀ tr, Plain p.1) (op : Op) :
    PlainCall (run step s₀ tr) op ↔ ∀ p ∈ accepted s₀ (tr ++ [op]), Plain p.1 := by
  rw [accepted_snoc]
  constructor
  · intro hop p hp
    rcases List.mem_append.mp hp with hp | hp
    · exact h p hp
    · cases op with
      | enqueue r now =>
        by_cases ha : (run step s₀ tr).Accepts r
        · rw [emitAccepted_enqueue_of ha, List.mem_singleton] at hp
          rw [hp]
          exact hop r now rfl ha
        · rw [emitAccepted_enqueue_of_not ha] at hp
          cases hp
      | _ => cases hp
  · rintro hall r now rfl ha
    refine hall (r, now) (List.mem_append_right _ ?_)
    rw [emitAccepted_enqueue_of ha]
    exact List.mem_singleton.mpr rfl

/-- **Exact counters.** The counters are exact throughout a history exactly when each of its
`enqueue` calls that is accepted is for a request without a user and a model whose id is no user's
counter key. -/
theorem exactCounts_iff (maxQueueSize : ℤ) (tr : List Op) :
    (∀ pre, pre <+: tr → ExactCounts maxQueueSize pre) ↔
      Along step PlainCall (init maxQueueSize) tr := by
  simp only [exactCounts_iff_plain]
  exact forall_prefix_iff_along (fun p hp => by cases hp) (fun _ h op => plainCall_iff h op) tr

/-- A model id in the shape of the counter key of `bob`: the counter of `bob` is 1 before any of
his requests is accepted, and with a quota of 1 his first request is refused. -/
theorem reserved_model_blocks_user :
    let tr : List Op := [.setUserQuota "bob" 1,
      .enqueue { priority := 2, requestId := "r1", modelId := "user:bob", timestamp := 0 } 0]
    let s := run step (init 10) tr
    s.requestCounts.getD (userKey "bob") 0 = 1 ∧ acceptedBy (accepted (init 10) tr) "bob" = 0 ∧
      (s.enqueue { priority := 2, requestId := "r2", userId := some "bob", timestamp := 0 }).1 =
        false ∧
      ¬ ExactCounts 10 tr := by
  refine ⟨by decide +kernel, by decide +kernel, by decide +kernel, fun h => ?_⟩
  have hbob := h.user "bob" (by decide)
  revert hbob
  decide +kernel

/-! ## The rate limit -/

/-- The texts that start with `"user:"`. -/
def StartsWithUser (m : String) : Prop := ∃ t, m = userKey t

theorem Reserved.startsWithUser {m : String} (h : Reserved m) : StartsWithUser m := by
  obtain ⟨u, -, hm⟩ := h
  exact ⟨u, hm⟩

/-- The queue has room for a request. -/
def HasRoom (s : RequestScheduler) : Prop := (s.queue.length : ℤ) < s.maxQueueSize

/-- The requests accepted in a history are requests it enqueues. -/
theorem enqueue_mem_of_accepted {s₀ : RequestScheduler} {tr : List Op}
    {p : ScheduledRequest × ℤ} (h : p ∈ accepted s₀ tr) : .enqueue p.1 p.2 ∈ tr := by
  induction tr using List.reverseRecOn with
  | nil => cases h
  | append_singleton tr op ih =>
    rw [accepted_snoc] at h
    rcases List.mem_append.mp h with h | h
    · exact List.mem_append_left _ (ih h)
    · cases op with
      | enqueue r now =>
        by_cases ha : (run step s₀ tr).Accepts r
        · rw [emitAccepted_enqueue_of ha, List.mem_singleton] at h
          rw [h]
          exact List.mem_append_right _ (List.mem_singleton.mpr rfl)
        · rw [emitAccepted_enqueue_of_not ha] at h
          cases h
      | _ => cases h

/-- With room in the queue, a user's request is refused exactly when the quota test fails. -/
theorem enqueue_eq_false_iff {s : RequestScheduler} {r : ScheduledRequest} {u : String}
    (hroom : HasRoom s) (hu : r.user? = some u) :
    (s.enqueue r).1 = false ↔ ¬ s.checkUserQuota u = true := by
  rw [← Bool.not_eq_true, enqueue_fst]
  unfold Accepts
  simp only [hu, Option.some.injEq]
  constructor
  · exact fun h hq => h ⟨hroom, fun v hv => hv ▸ hq⟩
  · exact fun h hq => h (hq.2 u rfl)

/-- **Rate limit.** In a history whose model ids do not start with `"user:"`, take an `enqueue`
of a request of the user `u` that finds room in the queue. It refuses the request if and only if
the quota of `u` was used up within the last 60 seconds, exactly when the quota was not used up
by the whole history or was used up within the last 60 seconds. -/
theorem enqueue_rateLimit_iff (maxQueueSize : ℤ) (tr : List Op)
    (hids : ∀ r now, .enqueue r now ∈ tr → ¬ StartsWithUser r.modelId)
    (pre : List Op) (r : ScheduledRequest) (now : ℤ) (hpre : pre ++ [.enqueue r now] <+: tr)
    (hroom : HasRoom (run step (init maxQueueSize) pre)) (u : String) (hu : r.user? = some u) :
    (((run step (init maxQueueSize) pre).enqueue r).1 = false ↔
        quotaIn u pre ≤ acceptedWithinMinute (accepted (init maxQueueSize) pre) u now) ↔
      ((acceptedBy (accepted (init maxQueueSize) pre) u : ℤ) < quotaIn u pre ∨
        quotaIn u pre ≤ acceptedWithinMinute (accepted (init maxQueueSize) pre) u now) := by
  have hun : ∀ p ∈ accepted (init maxQueueSize) pre, ¬ Reserved p.1.modelId := by
    intro p hp hres
    have hmem := enqueue_mem_of_accepted hp
    exact hids p.1 p.2 (hpre.subset (List.mem_append_left _ hmem)) hres.startsWithUser
  have hle := acceptedWithinMinute_le (accepted (init maxQueueSize) pre) u now
  rw [enqueue_eq_false_iff hroom hu, quota_of_unreserved hun (user?_ne_empty hu)]
  omega

/-- A request of `bob` for the model `m1`, made at the date `now`. -/
def requestOfBob (now : ℤ) : ScheduledRequest :=
  { priority := 2, requestId := "r", userId := some "bob", modelId := "m1", timestamp := now }

/-- A quota of one request a minute for `bob`, and a first request of his at the date 0. -/
def bobOnce : List Op := [.setUserQuota "bob" 1, .enqueue (requestOfBob 0) 0]

theorem not_startsWithUser_m1 : ¬ StartsWithUser "m1" := by
  rintro ⟨t, ht⟩
  have h := congrArg String.toList ht
  simp [userKey] at h

/-- A second request of `bob`, within the minute. -/
theorem enqueue_rateLimit_bob :
    (((run step (init 10) bobOnce).enqueue (requestOfBob 1)).1 = false ↔
        quotaIn "bob" bobOnce ≤ acceptedWithinMinute (accepted (init 10) bobOnce) "bob" 1) ↔
      ((acceptedBy (accepted (init 10) bobOnce) "bob" : ℤ) < quotaIn "bob" bobOnce ∨
        quotaIn "bob" bobOnce ≤ acceptedWithinMinute (accepted (init 10) bobOnce) "bob" 1) := by
  refine enqueue_rateLimit_iff 10 (bobOnce ++ [.enqueue (requestOfBob 1) 1]) ?_ bobOnce
    (requestOfBob 1) 1 List.prefix_rfl (by unfold HasRoom; decide +kernel) "bob" (by decide +kernel)
  intro r now h
  simp only [bobOnce, List.mem_append, List.mem_cons, reduceCtorEq, Op.enqueue.injEq,
    List.not_mem_nil, or_false, false_or] at h
  rcases h with ⟨rfl, -⟩ | ⟨rfl, -⟩ <;> exact not_startsWithUser_m1

/-- 61 seconds after the only request of `bob` the next one is still refused. -/
theorem enqueue_refuses_after_minute :
    ((run step (init 10) bobOnce).enqueue (requestOfBob 61000000)).1 = false ∧
      quotaIn "bob" bobOnce = 1 ∧
      acceptedWithinMinute (accepted (init 10) bobOnce) "bob" 61000000 = 0 ∧
      ¬ (((run step (init 10) bobOnce).enqueue (requestOfBob 61000000)).1 = false ↔
        quotaIn "bob" bobOnce ≤
          acceptedWithinMinute (accepted (init 10) bobOnce) "bob" 61000000) := by
  decide +kernel

end RequestScheduler

end PyStreamAI
