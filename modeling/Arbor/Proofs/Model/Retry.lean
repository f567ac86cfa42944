import Arbor.Model.Client
import Mathlib.Algebra.Group.Nat.Defs

/-! # Sending a request again

A request is sent again as long as the policy gives a delay. The delay saturates three times: the
factor at 32 bits, the product at the longest duration, and the result at the cap. Where the cap is a
duration, the second of these does not show.

* `delay_eq_none_iff`, `delay_of_asked`, `delay_of_unasked`: when there is a delay, and which.
* `wait_mono`, `wait_eq`: without a wait that was asked for, it doubles until it is capped.
* `attempts_sends`: the loop sends until an outcome is final.
* `generate_bounded`: how often a client sends, and when it waits how long. -/

namespace Arbor.Model

namespace RetryPolicy

variable {policy : RetryPolicy} {error : Error} {attempt attempt' : Nat}

/-! ### The delay -/

/-- The factor is a power of two, up to the greatest number of 32 bits. -/
theorem backoffFactor_eq (attempt : Nat) : backoffFactor attempt = min (2 ^ attempt) maxFactor := by
  unfold backoffFactor
  split
  · next small =>
    have hpow : 2 ^ attempt ≤ 2 ^ 31 := Nat.pow_le_pow_right (by decide) (by omega)
    have hmax : 2 ^ 31 ≤ maxFactor := by decide
    rw [Nat.one_shiftLeft, Nat.min_eq_left (Nat.le_trans hpow hmax)]
  · next large =>
    have hpow : 2 ^ 32 ≤ 2 ^ attempt := Nat.pow_le_pow_right (by decide) (by omega)
    have hmax : maxFactor ≤ 2 ^ 32 := by decide
    exact (Nat.min_eq_right (Nat.le_trans hmax hpow)).symm

/-- **The wait before the next attempt,** if nobody asks for another. -/
def wait (policy : RetryPolicy) (attempt : Nat) : Nanos :=
  min (policy.baseDelay * min (2 ^ attempt) maxFactor) policy.maxDelay

theorem wait_mono (policy : RetryPolicy) (h : attempt ≤ attempt') :
    policy.wait attempt ≤ policy.wait attempt' := by
  have hpow : 2 ^ attempt ≤ 2 ^ attempt' := Nat.pow_le_pow_right (by decide) h
  have hfactor : min (2 ^ attempt) maxFactor ≤ min (2 ^ attempt') maxFactor :=
    Nat.le_min.mpr ⟨Nat.le_trans (Nat.min_le_left _ _) hpow, Nat.min_le_right _ _⟩
  have hproduct := Nat.mul_le_mul_left policy.baseDelay hfactor
  exact Nat.le_min.mpr ⟨Nat.le_trans (Nat.min_le_left _ _) hproduct, Nat.min_le_right _ _⟩

/-- **It doubles with every attempt until it is capped,** as long as the power fits into 32 bits, or
the greatest factor leads to the cap. -/
theorem wait_eq (h : attempt ≤ 31 ∨ policy.maxDelay ≤ policy.baseDelay * (2 ^ 32 - 1)) :
    policy.wait attempt = min (policy.baseDelay * 2 ^ attempt) policy.maxDelay := by
  unfold wait
  rcases Nat.le_total (2 ^ attempt) maxFactor with small | large
  · rw [Nat.min_eq_left small]
  · rw [Nat.min_eq_right large]
    rcases h with few | hcap
    · -- a power of at most 31 is below the greatest factor
      have hpow : 2 ^ attempt ≤ 2 ^ 31 := Nat.pow_le_pow_right (by decide) few
      exact absurd (Nat.le_trans large hpow) (by decide)
    · have hmore := Nat.mul_le_mul_left policy.baseDelay large
      have hcap' : policy.maxDelay ≤ policy.baseDelay * maxFactor := hcap
      rw [Nat.min_eq_right hcap', Nat.min_eq_right (Nat.le_trans hcap' hmore)]

/-- **There is no delay** exactly if the error is no reason to try again, or the attempts are used
up. -/
theorem delay_eq_none_iff :
    policy.delay error attempt = Option.none ↔
      error.kind.isRetryable = false ∨ policy.maxAttempts ≤ attempt := by
  unfold delay
  cases error.kind.isRetryable <;> simp

/-- A wait that the provider asks for is capped. -/
theorem delay_of_asked {asked delay : Nanos} (h : policy.delay error attempt = some delay)
    (wish : error.retryAfter = some asked) : delay = min asked policy.maxDelay := by
  unfold RetryPolicy.delay at h
  split at h
  · cases h
  · rw [wish] at h
    exact (Option.some.inj h).symm

/-- Without one the delay is the wait. The longest duration does not show, where the cap is one. -/
theorem delay_of_unasked {delay : Nanos} (cap : policy.maxDelay ≤ maxDuration)
    (h : policy.delay error attempt = some delay) (unasked : error.retryAfter = Option.none) :
    delay = policy.wait attempt := by
  unfold RetryPolicy.delay at h
  split at h
  · cases h
  · simp only [unasked, Option.getD_none, Option.some.injEq] at h
    rw [← h, wait, backoffFactor_eq, Nat.min_assoc, Nat.min_eq_right cap]

theorem delay_le {delay : Nanos} (h : policy.delay error attempt = some delay) :
    delay ≤ policy.maxDelay := by
  unfold RetryPolicy.delay at h
  split at h
  · cases h
  · rw [← Option.some.inj h]
    exact Nat.min_le_right _ _

/-- **Whoever gets a delay may try again:** the server or the network has failed, and attempts are
left. -/
theorem retryable_of_delay {delay : Nanos} (h : policy.delay error attempt = some delay) :
    (error.kind = .serverError ∨ error.kind = .networkError) ∧ attempt < policy.maxAttempts := by
  have hsome : policy.delay error attempt ≠ Option.none := by rw [h]; simp
  rw [Ne, delay_eq_none_iff, not_or, Nat.not_le] at hsome
  refine ⟨?_, hsome.2⟩
  have hretryable := hsome.1
  cases hkind : error.kind <;> simp_all [ErrorKind.isRetryable]

end RetryPolicy

namespace Client

variable {policy : RetryPolicy} {outcome outcome' : Nat → Except Error String} {error : Error}
  {delay : Nanos} {result : Except Error String} {posts first left : Nat}

/-! ### The loop -/

/-- **A request is sent from post number `first` on until an outcome is final,** `posts` posts being
sent then: the last outcome is the result, the policy gives no delay for it, and it gave one for each
outcome before. -/
structure Sends (policy : RetryPolicy) (outcome : Nat → Except Error String) (first : Nat)
    (result : Except Error String) (posts : Nat) : Prop where
  some : first < posts
  last : outcome (posts - 1) = result
  again : ∀ n, first ≤ n → n + 1 < posts →
    ∃ error delay, outcome n = .error error ∧ policy.delay error n = .some delay
  final : ∀ error, result = .error error → policy.delay error (posts - 1) = none

/-- One post, whose outcome is final. -/
theorem Sends.once (last : outcome first = result)
    (final : ∀ error, result = .error error → policy.delay error first = none) :
    Sends policy outcome first result (first + 1) where
  some := Nat.lt_succ_self _
  last := last
  again n hfirst hlast := absurd hlast (by omega)
  final := final

/-- One post before the others. -/
theorem Sends.before (failed : outcome first = .error error)
    (waits : policy.delay error first = .some delay)
    (more : Sends policy outcome (first + 1) result posts) :
    Sends policy outcome first result posts where
  some := Nat.lt_of_succ_lt more.some
  last := more.last
  again n hfirst hlast := by
    rcases Nat.eq_or_lt_of_le hfirst with rfl | hlater
    · exact ⟨error, delay, failed, waits⟩
    · exact more.again n hlater hlast
  final := more.final

/-- **The loop sends until an outcome is final.** Where no attempt is left, every outcome is. -/
theorem attempts_sends (policy : RetryPolicy) (outcome : Nat → Except Error String)
    (total : left + first = policy.maxAttempts) :
    Sends policy outcome first (attempts policy outcome left first).1
      (attempts policy outcome left first).2 := by
  induction left generalizing first with
  | zero =>
    exact Sends.once rfl fun error _ => RetryPolicy.delay_eq_none_iff.mpr (Or.inr (by omega))
  | succ left ih =>
    cases houtcome : outcome first with
    | ok reply =>
      have hrun : attempts policy outcome (left + 1) first = (.ok reply, first + 1) := by
        simp only [attempts, houtcome]
      rw [hrun]
      exact Sends.once houtcome fun error h => nomatch h
    | error error =>
      cases hdelay : policy.delay error first with
      | none =>
        have hrun : attempts policy outcome (left + 1) first = (.error error, first + 1) := by
          simp only [attempts, houtcome, hdelay]
        rw [hrun]
        refine Sends.once houtcome fun error' h => ?_
        cases h
        exact hdelay
      | some delay =>
        have hrun : attempts policy outcome (left + 1) first =
            attempts policy outcome left (first + 1) := by
          simp only [attempts, houtcome, hdelay]
        rw [hrun]
        exact Sends.before houtcome hdelay (ih (by omega))

/-- No more posts are sent than there are further attempts, and one. -/
theorem Sends.bounded (h : Sends policy outcome 0 result posts) : posts ≤ policy.maxAttempts + 1 := by
  refine Nat.le_of_not_lt fun hmore => ?_
  obtain ⟨error, delay, -, hdelay⟩ := h.again policy.maxAttempts (Nat.zero_le _) (by omega)
  exact Nat.lt_irrefl _ (RetryPolicy.retryable_of_delay hdelay).2

/-- Only an outcome that was asked for counts. -/
theorem Sends.congr (h : Sends policy outcome first result posts)
    (same : ∀ n, first ≤ n → n < posts → outcome' n = outcome n) :
    Sends policy outcome' first result posts where
  some := h.some
  last := by
    have hsome := h.some
    rw [same (posts - 1) (by omega) (by omega), h.last]
  again n hfirst hlast := by
    rw [same n hfirst (by omega)]
    exact h.again n hfirst hlast
  final := h.final

/-- The outcomes say how many posts are sent, and what the result is. -/
theorem Sends.unique {result' : Except Error String} {posts' : Nat}
    (h : Sends policy outcome first result posts) (h' : Sends policy outcome first result' posts') :
    result = result' ∧ posts = posts' := by
  -- the shorter one of two would go on
  have hle : ∀ {r r' p p'}, Sends policy outcome first r p → Sends policy outcome first r' p' →
      p' ≤ p := fun {r r' p p'} hs hs' => by
    refine Nat.le_of_not_lt fun hlt => ?_
    have hsome := hs.some
    obtain ⟨error, delay, hfailed, hdelay⟩ := hs'.again (p - 1) (by omega) (by omega)
    have hnone := hs.final error (hs.last.symm.trans hfailed)
    rw [hdelay] at hnone
    cases hnone
  have hposts : posts = posts' := Nat.le_antisymm (hle h' h) (hle h h')
  subst hposts
  exact ⟨h.last.symm.trans h'.last, rfl⟩

/-- **A client sends a request a bounded number of times, and again only where that may help.** It
sends at most one request more than the policy has attempts. Its result is the outcome of the last
one, each before having failed with an error of the server or of the network, and outcomes that it
did not wait for do not matter. There is no delay exactly if the error is no reason to try again or
the attempts are used up; otherwise the delay is capped, it is the wait that the provider asks for,
and without one it never shrinks and doubles until it is capped, as long as the power fits into
32 bits or the greatest factor leads to the cap. -/
theorem generate_bounded (c : Client) (exchange : Nat → Exchange)
    (cap : c.retry.maxDelay ≤ maxDuration) :
    (∃ result posts, c.generate exchange = (result, posts) ∧
      1 ≤ posts ∧ posts ≤ c.retry.maxAttempts + 1 ∧
      result = (c.tried (exchange (posts - 1))).outcome ∧
      (∀ n, n + 1 < posts → ∃ error, (c.tried (exchange n)).outcome = .error error ∧
        (error.kind = .serverError ∨ error.kind = .networkError)) ∧
      (∀ error, result = .error error →
        error.kind.isRetryable = false ∨ posts = c.retry.maxAttempts + 1) ∧
      (∀ exchange', (∀ n < posts, exchange' n = exchange n) →
        c.generate exchange' = (result, posts))) ∧
    (∀ error attempt,
      (c.retry.delay error attempt = none ↔
        error.kind.isRetryable = false ∨ c.retry.maxAttempts ≤ attempt) ∧
      ∀ delay, c.retry.delay error attempt = some delay →
        delay ≤ c.retry.maxDelay ∧
        (∀ asked, error.retryAfter = some asked → delay = min asked c.retry.maxDelay) ∧
        (error.retryAfter = none →
          (∀ attempt' delay', attempt ≤ attempt' → c.retry.delay error attempt' = some delay' →
            delay ≤ delay') ∧
          (attempt ≤ 31 ∨ c.retry.maxDelay ≤ c.retry.baseDelay * (2 ^ 32 - 1) →
            delay = min (c.retry.baseDelay * 2 ^ attempt) c.retry.maxDelay))) := by
  have hsends := fun e : Nat → Exchange =>
    attempts_sends c.retry (fun n => (c.tried (e n)).outcome) (Nat.add_zero c.retry.maxAttempts)
  refine ⟨⟨_, _, rfl, (hsends exchange).some, (hsends exchange).bounded,
    (hsends exchange).last.symm, fun n hlast => ?_, fun error herror => ?_, fun exchange' hsame => ?_⟩,
    fun error attempt => ⟨RetryPolicy.delay_eq_none_iff, fun delay hdelay =>
      ⟨RetryPolicy.delay_le hdelay, fun asked => RetryPolicy.delay_of_asked hdelay,
        fun unasked => ⟨fun attempt' delay' hlater hdelay' => ?_, fun hpower => ?_⟩⟩⟩⟩
  · obtain ⟨error, delay, hfailed, hdelay⟩ := (hsends exchange).again n (Nat.zero_le _) hlast
    exact ⟨error, hfailed, (RetryPolicy.retryable_of_delay hdelay).1⟩
  · have hbounded := (hsends exchange).bounded
    have hsome := (hsends exchange).some
    refine (RetryPolicy.delay_eq_none_iff.mp ((hsends exchange).final error herror)).imp_right
      fun hused => ?_
    omega
  · have hcongr : Sends c.retry (fun n => (c.tried (exchange' n)).outcome) 0 _ _ :=
      (hsends exchange).congr fun n _ hlast => by rw [hsame n hlast]
    obtain ⟨hresult, hposts⟩ := (hsends exchange').unique hcongr
    exact Prod.ext hresult hposts
  · rw [RetryPolicy.delay_of_unasked cap hdelay unasked,
      RetryPolicy.delay_of_unasked cap hdelay' unasked]
    exact RetryPolicy.wait_mono _ hlater
  · rw [RetryPolicy.delay_of_unasked cap hdelay unasked]
    exact RetryPolicy.wait_eq hpower

/-- A client with the usual policy. -/
def patient : Client := { apiKey := "key", model := "model", retry := .standard }

/-- Nobody answers it: four posts are sent, and the wait before the third is two seconds. -/
theorem generate_bounded_patient :
    patient.retry.maxDelay ≤ maxDuration ∧
    (patient.generate fun _ => .failed .unreachable "no route").2 = 4 ∧
    patient.retry.delay (.ofKind .networkError "") 1 = some 2000000000 := by
  have cap : patient.retry.maxDelay ≤ maxDuration := by decide
  obtain ⟨⟨result, posts, hrun, hsome, hbounded, hlast, -, hfinal, -⟩, hdelay⟩ :=
    generate_bounded patient (fun _ => .failed .unreachable "no route") cap
  refine ⟨cap, ?_, ?_⟩
  · rw [hrun]
    -- a fault of the network may be tried again, so the attempts are used up
    refine (hfinal (.ofKind .networkError "connection failed: no route") ?_).resolve_left (by decide)
    rw [hlast]
    rfl
  · obtain ⟨hnone, hsome⟩ := hdelay (.ofKind .networkError "") 1
    obtain ⟨delay, hd⟩ := Option.ne_none_iff_exists'.mp (mt hnone.mp (by decide))
    rw [hd, ((hsome delay hd).2.2 rfl).2 (Or.inl (by decide))]
    rfl

end Client

end Arbor.Model
