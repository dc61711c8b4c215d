import Nelix.Core.Machine
import Mathlib.Algebra.Order.Ring.Rat
import Mathlib.Logic.Function.Basic
import Mathlib.Tactic.Linarith
import Mathlib.Tactic.Ring

/-!
# The rate limiter of the hook route

`_HookRateLimiter`: a token bucket for every session. A bucket comes into being full with the first
request of its session, and stays for good.

## Main results

`admitted_le`: in no window are more requests of a session admitted than the capacity and what is
refilled in the window.
-/
namespace Nelix.Daemon

/-- What a limiter is made with. -/
structure RateLimits where
  capacity : ℚ
  refill : ℚ
  capacity_nonneg : 0 ≤ capacity
  refill_nonneg : 0 ≤ refill

/-- `_HOOK_RATE_CAPACITY` and `_HOOK_RATE_REFILL` -/
def hookRate : RateLimits := ⟨60, 30, by decide, by decide⟩

/-- `[tokens, last_ts]` -/
structure Bucket where
  tokens : ℚ
  last : ℚ

abbrev Buckets := String → Option Bucket

structure RateRequest where
  sid : String
  now : ℚ
deriving DecidableEq

namespace RateLimits
variable (l : RateLimits)

/-- What is in the bucket at a request. -/
def tokensAt (buckets : Buckets) (r : RateRequest) : ℚ :=
  let bucket := (buckets r.sid).getD ⟨l.capacity, r.now⟩
  min l.capacity (bucket.tokens + (r.now - bucket.last) * l.refill)

/-- `allow` -/
def allow (buckets : Buckets) (r : RateRequest) : Buckets × Bool :=
  let tokens := l.tokensAt buckets r
  if tokens < 1 then (Function.update buckets r.sid (some ⟨tokens, r.now⟩), false)
  else (Function.update buckets r.sid (some ⟨tokens - 1, r.now⟩), true)

/-- The limiter request by request. Its outputs are the requests that it admits. -/
def limiter : Core.Machine Buckets RateRequest RateRequest where
  step buckets r := ((l.allow buckets r).1, if (l.allow buckets r).2 then [r] else [])

/-- How many requests of the session are admitted from `a` to `b`. -/
def admitted (requests : List RateRequest) (sid : String) (a b : ℚ) : ℕ :=
  (l.limiter.outputs (fun _ => none) requests).countP fun r => r.sid = sid ∧ a ≤ r.now ∧ r.now ≤ b

/-! ### One request -/

section Request
variable {l} {buckets : Buckets} {r : RateRequest} {b : Bucket}

theorem tokensAt_le : l.tokensAt buckets r ≤ l.capacity := min_le_left _ _

theorem tokensAt_none (new : buckets r.sid = none) : l.tokensAt buckets r = l.capacity := by
  rw [tokensAt, new]
  simp

theorem tokensAt_some (known : buckets r.sid = some b) :
    l.tokensAt buckets r ≤ b.tokens + (r.now - b.last) * l.refill := by
  rw [tokensAt, known]
  exact min_le_right _ _

theorem tokensAt_nonneg (held : ∀ b ∈ buckets r.sid, 0 ≤ b.tokens ∧ b.last ≤ r.now) :
    0 ≤ l.tokensAt buckets r := by
  cases known : buckets r.sid with
  | none =>
    rw [tokensAt_none known]
    exact l.capacity_nonneg
  | some b =>
    obtain ⟨tokens, past⟩ := held b known
    have more := mul_nonneg (sub_nonneg.mpr past) l.refill_nonneg
    rw [tokensAt, known]
    exact le_min l.capacity_nonneg (add_nonneg tokens more)

end Request

/-! ### Windows -/

/-- The account of one session and one window after these requests: `count` of them were admitted in
the window. -/
structure Account (sid : String) (a b : ℚ) (requests : List RateRequest) (buckets : Buckets)
    (count : ℕ) : Prop where
  unknown : buckets sid = none → count = 0
  most : count ≤ l.capacity + l.refill * (b - a)
  held : ∀ k ∈ buckets sid, 0 ≤ k.tokens ∧ (∃ r ∈ requests, r.now = k.last) ∧
    (k.last ≤ b → count = 0 ∨ a ≤ k.last ∧ count + k.tokens ≤ l.capacity + l.refill * (k.last - a))

section Window
variable {l} {sid : String} {a b : ℚ} {requests : List RateRequest} {buckets : Buckets} {count : ℕ}
  {r : RateRequest}

/-- A request of another session. -/
theorem Account.aside (account : l.Account sid a b requests buckets count) (other : r.sid ≠ sid)
    (entry : Bucket) :
    l.Account sid a b (requests ++ [r]) (Function.update buckets r.sid (some entry)) count := by
  have same : Function.update buckets r.sid (some entry) sid = buckets sid :=
    Function.update_of_ne other.symm _ _
  refine ⟨fun none_ => account.unknown (same ▸ none_), account.most, fun k known => ?_⟩
  obtain ⟨tokens, ⟨earlier, member, time⟩, window⟩ := account.held k (same ▸ known)
  exact ⟨tokens, ⟨earlier, List.mem_append_left _ member, time⟩, window⟩

/-- What has been admitted in the window and what is left in the bucket grow by no more than is
refilled. -/
theorem Account.level (account : l.Account sid a b requests buckets count) (own : r.sid = sid)
    (past : ∀ q ∈ requests, q.now ≤ r.now) (from_ : a ≤ r.now) (upTo : r.now ≤ b) :
    count + l.tokensAt buckets r ≤ l.capacity + l.refill * (r.now - a) := by
  have refilled := mul_nonneg l.refill_nonneg (sub_nonneg.mpr from_)
  have most : l.tokensAt buckets r ≤ l.capacity := tokensAt_le
  cases known : buckets sid with
  | none =>
    rw [account.unknown known, Nat.cast_zero]
    linarith
  | some k =>
    obtain ⟨-, ⟨q, member, time⟩, window⟩ := account.held k known
    have before : k.last ≤ r.now := time ▸ past q member
    obtain none_ | ⟨-, kept⟩ := window (before.trans upTo)
    · rw [none_, Nat.cast_zero]
      linarith
    · have added : l.tokensAt buckets r ≤ k.tokens + (r.now - k.last) * l.refill :=
        tokensAt_some (own.symm ▸ known)
      calc count + l.tokensAt buckets r
          ≤ (count + k.tokens) + (r.now - k.last) * l.refill := by linarith
        _ ≤ (l.capacity + l.refill * (k.last - a)) + (r.now - k.last) * l.refill := by linarith
        _ = l.capacity + l.refill * (r.now - a) := by ring

/-- The session's bucket as a request leaves it. -/
theorem Account.renew {entry : Bucket} (member : r ∈ requests) (last : entry.last = r.now)
    (filled : 0 ≤ entry.tokens) (most : count ≤ l.capacity + l.refill * (b - a))
    (window : r.now ≤ b → count = 0 ∨
      a ≤ r.now ∧ count + entry.tokens ≤ l.capacity + l.refill * (r.now - a)) :
    l.Account sid a b requests (Function.update buckets sid (some entry)) count := by
  refine ⟨fun none_ => ?_, most, fun k known => ?_⟩
  · rw [Function.update_self] at none_
    cases none_
  · rw [Function.update_self] at known
    cases known
    exact ⟨filled, ⟨r, member, last.symm⟩, last ▸ window⟩

/-- Before the window nothing is counted yet. -/
theorem Account.early (account : l.Account sid a b requests buckets count)
    (past : ∀ q ∈ requests, q.now ≤ r.now) (soon : r.now < a) (upTo : r.now ≤ b) : count = 0 := by
  cases known : buckets sid with
  | none => exact account.unknown known
  | some k =>
    obtain ⟨-, ⟨q, member, time⟩, window⟩ := account.held k known
    have before : k.last ≤ r.now := time ▸ past q member
    obtain none_ | ⟨from_, -⟩ := window (before.trans upTo)
    · exact none_
    · exact absurd (from_.trans before) (not_le.mpr soon)

/-- A request of the session. -/
theorem Account.own (account : l.Account r.sid a b requests buckets count)
    (past : ∀ q ∈ requests, q.now ≤ r.now) :
    l.Account r.sid a b (requests ++ [r]) (l.allow buckets r).1
      (count + if (l.allow buckets r).2 = true ∧ a ≤ r.now ∧ r.now ≤ b then 1 else 0) := by
  have here : r ∈ requests ++ [r] := by simp
  have filled : 0 ≤ l.tokensAt buckets r := by
    refine tokensAt_nonneg fun k known => ?_
    obtain ⟨tokens, ⟨q, member, time⟩, -⟩ := account.held k known
    exact ⟨tokens, time ▸ past q member⟩
  rw [allow]
  split
  · rw [if_neg (by simp), Nat.add_zero]
    refine .renew here rfl filled account.most fun upTo => ?_
    rcases lt_or_ge r.now a with soon | from_
    · exact .inl (account.early past soon upTo)
    · exact .inr ⟨from_, account.level rfl past from_ upTo⟩
  · rename_i enough
    have one : 0 ≤ l.tokensAt buckets r - 1 := sub_nonneg.mpr (not_lt.mp enough)
    by_cases inside : a ≤ r.now ∧ r.now ≤ b
    · have level := account.level rfl past inside.1 inside.2
      have grown : l.refill * (r.now - a) ≤ l.refill * (b - a) :=
        mul_le_mul_of_nonneg_left (by linarith) l.refill_nonneg
      rw [if_pos ⟨rfl, inside⟩]
      push_cast
      refine .renew here rfl one ?_ fun _ => .inr ⟨inside.1, ?_⟩ <;> push_cast <;> linarith
    · rw [if_neg (by simpa using inside), Nat.add_zero]
      refine .renew here rfl one account.most fun upTo => .inl (account.early past ?_ upTo)
      exact not_le.mp fun from_ => inside ⟨from_, upTo⟩

end Window

theorem admitted_append (sid : String) (a b : ℚ) (requests : List RateRequest) (r : RateRequest) :
    l.admitted (requests ++ [r]) sid a b = l.admitted requests sid a b +
      if (l.allow (l.limiter.after (fun _ => none) requests) r).2 = true ∧ r.sid = sid ∧
        a ≤ r.now ∧ r.now ≤ b then 1 else 0 := by
  rw [admitted, Core.Machine.outputs_append, List.countP_append, ← admitted]
  refine congrArg _ ?_
  rw [Core.Machine.outputs_cons, Core.Machine.outputs_nil, List.append_nil, limiter]
  dsimp only
  split <;> simp [*]

/-- Every window of a run keeps its account. -/
theorem limiter_account (sid : String) {a b : ℚ} (window : a ≤ b) {requests : List RateRequest}
    (ordered : requests.Pairwise fun q r => q.now ≤ r.now) :
    l.Account sid a b requests (l.limiter.after (fun _ => none) requests)
      (l.admitted requests sid a b) := by
  induction requests using List.reverseRecOn with
  | nil =>
    have room := mul_nonneg l.refill_nonneg (sub_nonneg.mpr window)
    have full := l.capacity_nonneg
    refine ⟨fun _ => rfl, ?_, nofun⟩
    simp only [admitted, Core.Machine.outputs_nil, List.countP_nil, Nat.cast_zero]
    linarith
  | append_singleton requests r ih =>
    obtain ⟨sooner, -, last⟩ := List.pairwise_append.mp ordered
    have account := ih sooner
    have past : ∀ q ∈ requests, q.now ≤ r.now := fun q member => last q member r (by simp)
    rw [Core.Machine.after_append, admitted_append, Core.Machine.after_cons, Core.Machine.after_nil]
    by_cases own : r.sid = sid
    · subst own
      simp only [true_and]
      exact account.own past
    · rw [if_neg fun both => own both.2.1, Nat.add_zero, limiter]
      dsimp only
      rw [allow]
      split <;> exact account.aside own _

end RateLimits

/-- For all requests with times that do not decrease: from `a` to `a + T` no more requests of a session
are admitted than the capacity and what is refilled in `T`. -/
theorem admitted_le (l : RateLimits) (requests : List RateRequest)
    (ordered : requests.Pairwise fun q r => q.now ≤ r.now) (sid : String) (a T : ℚ) (length : 0 ≤ T) :
    l.admitted requests sid a (a + T) ≤ l.capacity + l.refill * T := by
  have account := l.limiter_account sid (le_add_of_nonneg_right length : a ≤ a + T) ordered
  have most := account.most
  rwa [add_sub_cancel_left] at most

theorem admitted_le_two :
    hookRate.admitted [⟨"s", 0⟩, ⟨"t", 0⟩, ⟨"s", 1⟩] "s" 0 (0 + 1) ≤ hookRate.capacity + hookRate.refill * 1 :=
  admitted_le hookRate _ (by decide +kernel) "s" 0 1 (by decide)

end Nelix.Daemon
