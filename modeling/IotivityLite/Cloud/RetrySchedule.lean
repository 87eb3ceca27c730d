import Mathlib.Data.List.GetD
import IotivityLite.Cloud.EndpointAddresses

/-!
# When the cloud tries again

The table of retry timeouts of `oc_cloud_schedule.c`, the delay and the
timeout that the default schedule takes from it, and the delay after which
`oc_cloud_manager.c` refreshes the token of a login.
-/

namespace IotivityLite

/-- What the timing code must not do. -/
inductive TimingFault where
  | assertion
  | divisionByZero
  | signedOverflow
  deriving DecidableEq, Repr

/-- `assert`, which a build with `NDEBUG` leaves out. -/
def assertTiming (asserts : Bool) (condition : Bool) :
    Except TimingFault Unit :=
  if asserts && !condition then .error .assertion else .ok ()

/-- The product of two `int64_t`. -/
def mulInt64 (left right : Int) : Except TimingFault Int :=
  if -2 ^ 63 ≤ left * right ∧ left * right < 2 ^ 63 then
    .ok (left * right)
  else .error .signedOverflow

theorem assertTiming_true (asserts : Bool) :
    assertTiming asserts true = .ok () := by
  simp [assertTiming]

theorem mulInt64_of_fits {left right : Int} (least : -2 ^ 63 ≤ left * right)
    (most : left * right < 2 ^ 63) : mulInt64 left right = .ok (left * right) :=
  if_pos ⟨least, most⟩

theorem mulInt64_of_too_large {left right : Int}
    (large : 2 ^ 63 ≤ left * right) :
    mulInt64 left right = .error .signedOverflow :=
  if_neg fun fits => by omega

def millisecondsPerSecond : Nat := 1000
def millisecondsPerMinute : Nat := 60 * millisecondsPerSecond
def millisecondsPerHour : Nat := 60 * millisecondsPerMinute

/-- `OC_CLOUD_RETRY_TIMEOUTS_SIZE` -/
def cloudRetryTimeoutsSize : Nat := 6

/-- `g_retry_timeout_ms`; entries that are not used are 0. -/
structure RetryTable where
  timeoutMs : List UInt16
  length_eq : timeoutMs.length = cloudRetryTimeoutsSize

namespace RetryTable

/-- `OC_CLOUD_DEFAULT_RETRY_TIMEOUTS` -/
def defaults : RetryTable where
  timeoutMs := [2000, 4000, 8000, 16000, 32000, 64000]
  length_eq := rfl

def entry (table : RetryTable) (retryCount : UInt8) : UInt16 :=
  table.timeoutMs.getD retryCount.toNat 0

/-- `cloud_retry_is_over` -/
def isOver (table : RetryTable) (retryCount : UInt8) : Bool :=
  cloudRetryTimeoutsSize ≤ retryCount.toNat || table.entry retryCount == 0

/-- The table after `memset` and `memcpy`. -/
def ofTimeouts (timeouts : List UInt16)
    (fits : timeouts.length ≤ cloudRetryTimeoutsSize) : RetryTable where
  timeoutMs :=
    timeouts ++ List.replicate (cloudRetryTimeoutsSize - timeouts.length) 0
  length_eq := by
    rw [List.length_append, List.length_replicate]
    omega

end RetryTable

/-- `none` when the timeouts are rejected and the table stays as it is. -/
def ocCloudSetRetryTimeouts : Option (List UInt16) → Option RetryTable
  | none => some RetryTable.defaults
  | some timeouts =>
      if fits : timeouts.length ≤ cloudRetryTimeoutsSize then
        if 0 ∈ timeouts then none
        else some (RetryTable.ofTimeouts timeouts fits)
      else none

/-- What `cloud_schedule_action` is told about the next attempt. -/
structure RetryAttempt where
  /-- in seconds -/
  timeout : UInt16
  /-- in milliseconds -/
  delay : UInt64
  deriving DecidableEq, Repr

/-- `default_schedule_action`; without an attempt the next server is selected.
`random` is the value of `oc_random_value`. -/
def RetryTable.defaultScheduleAction (asserts : Bool) (table : RetryTable)
    (retryCount : UInt8) (random : UInt32) :
    Except TimingFault (Option RetryAttempt) :=
  if table.isOver retryCount then .ok none
  else do
    assertTiming asserts
      (millisecondsPerSecond ≤ (table.entry retryCount).toNat)
    let timeout := table.entry retryCount / 1000
    let delay := (table.entry retryCount).toUInt64 / 2
    if delay = 0 then .error .divisionByZero
    else .ok (some ⟨timeout, delay + random.toUInt64 % delay⟩)

inductive CloudAction where
  | register
  | login
  | refreshToken
  deriving DecidableEq, Repr

/-- `ctx->retry` -/
structure RetryCounts where
  count : UInt8
  refreshTokenCount : UInt8
  deriving DecidableEq, Repr

/-- The count for an attempt, and the counters that are kept. -/
def RetryCounts.next (counts : RetryCounts) (action : CloudAction)
    (isRetry : Bool) : UInt8 × RetryCounts :=
  match action, isRetry with
  | .refreshToken, true =>
      (counts.refreshTokenCount + 1,
        ⟨counts.count, counts.refreshTokenCount + 1⟩)
  | .refreshToken, false => (0, ⟨counts.count, 0⟩)
  | _, true => (counts.count + 1, ⟨counts.count + 1, counts.refreshTokenCount⟩)
  | _, false => (0, ⟨0, counts.refreshTokenCount⟩)

/-- `onScheduleAction` is the application's own schedule, when there is one. -/
def RetryCounts.cloudScheduleAction (asserts : Bool) (table : RetryTable)
    (onScheduleAction : Option (CloudAction → UInt8 → Option RetryAttempt))
    (counts : RetryCounts) (action : CloudAction) (isRetry : Bool)
    (random : UInt32) :
    RetryCounts × Except TimingFault (Option RetryAttempt) :=
  let next := counts.next action isRetry
  (next.2,
    match onScheduleAction with
    | some schedule => .ok (schedule action next.1)
    | none => table.defaultScheduleAction asserts next.1 random)

/-- Either there is no attempt left, or the next one comes after a delay
between half of the entry and the entry and has at least a second. -/
def AttemptsInTime (table : RetryTable) (retryCount : UInt8) :
    Except TimingFault (Option RetryAttempt) → Prop
  | .error _ => False
  | .ok none => table.isOver retryCount = true
  | .ok (some attempt) =>
      1 ≤ attempt.timeout.toNat ∧
      (table.entry retryCount).toNat / 2 ≤ attempt.delay.toNat ∧
      attempt.delay.toNat ≤ (table.entry retryCount).toNat

/-- The table has nothing or at least a second for the count. -/
def RetryTable.Lasts (table : RetryTable) (retryCount : UInt8) : Prop :=
  table.isOver retryCount = true ∨
    millisecondsPerSecond ≤ (table.entry retryCount).toNat

theorem RetryTable.delay_bounds (entry : UInt16) (random : UInt32)
    (lasting : 2 ≤ entry.toNat) :
    entry.toNat / 2 ≤
        (entry.toUInt64 / 2 + random.toUInt64 % (entry.toUInt64 / 2)).toNat ∧
      (entry.toUInt64 / 2 +
        random.toUInt64 % (entry.toUInt64 / 2)).toNat ≤ entry.toNat := by
  have small : entry.toNat < 2 ^ 16 := entry.toNat_lt
  have below : random.toNat % (entry.toNat / 2) < entry.toNat / 2 :=
    Nat.mod_lt _ (by omega)
  have value : (entry.toUInt64 / 2 +
      random.toUInt64 % (entry.toUInt64 / 2)).toNat =
        entry.toNat / 2 + random.toNat % (entry.toNat / 2) := by
    rw [UInt64.toNat_add, UInt64.toNat_mod, UInt64.toNat_div,
      UInt16.toNat_toUInt64, UInt32.toNat_toUInt64]
    refine Nat.mod_eq_of_lt ?_
    show entry.toNat / 2 + random.toNat % (entry.toNat / 2) < 2 ^ 64
    omega
  rw [value]
  omega

theorem attemptsInTime_defaultScheduleAction (asserts : Bool)
    (table : RetryTable) (retryCount : UInt8) (random : UInt32) :
    AttemptsInTime table retryCount
        (table.defaultScheduleAction asserts retryCount random) ↔
      table.Lasts retryCount := by
  unfold RetryTable.defaultScheduleAction RetryTable.Lasts
  by_cases exhausted : table.isOver retryCount = true
  · rw [if_pos exhausted]
    exact iff_of_true exhausted (.inl exhausted)
  rw [if_neg exhausted]
  by_cases lasting :
      millisecondsPerSecond ≤ (table.entry retryCount).toNat
  · refine iff_of_true ?_ (.inr lasting)
    have second : 1000 ≤ (table.entry retryCount).toNat := lasting
    have positive : (table.entry retryCount).toUInt64 / 2 ≠ 0 := by
      intro zero
      have none := congrArg UInt64.toNat zero
      rw [UInt64.toNat_div, UInt16.toNat_toUInt64] at none
      have halved : (table.entry retryCount).toNat / 2 = 0 := none
      omega
    rw [decide_eq_true lasting, assertTiming_true]
    show AttemptsInTime table retryCount
      (if (table.entry retryCount).toUInt64 / 2 = 0 then _ else _)
    rw [if_neg positive]
    refine ⟨?_, RetryTable.delay_bounds _ random (by omega)⟩
    show 1 ≤ (table.entry retryCount / 1000).toNat
    rw [UInt16.toNat_div]
    exact (Nat.le_div_iff_mul_le (by decide)).mpr (by
      simpa using second)
  · refine iff_of_false ?_ (fun lasts => lasts.elim exhausted lasting)
    rw [decide_eq_false lasting]
    cases asserts with
    | true => exact id
    | false =>
        show ¬ AttemptsInTime table retryCount
          (if (table.entry retryCount).toUInt64 / 2 = 0 then _ else _)
        have none : (table.entry retryCount / 1000).toNat = 0 := by
          rw [UInt16.toNat_div]
          exact Nat.div_eq_of_lt (Nat.lt_of_not_le lasting)
        split
        · exact id
        · rintro ⟨timeout, -⟩
          have timeout : 1 ≤ (table.entry retryCount / 1000).toNat := timeout
          omega

/-- `cloud_manager_calculate_refresh_token_expiration` -/
def cloudManagerCalculateRefreshTokenExpiration (asserts : Bool)
    (expiresInMs : UInt64) : Except TimingFault UInt64 := do
  assertTiming asserts (0 < expiresInMs.toNat)
  if millisecondsPerHour < expiresInMs.toNat then
    .ok (expiresInMs - UInt64.ofNat (10 * millisecondsPerMinute))
  else if 4 * millisecondsPerMinute < expiresInMs.toNat then
    .ok (expiresInMs - UInt64.ofNat (2 * millisecondsPerMinute))
  else if 20 * millisecondsPerSecond < expiresInMs.toNat then
    .ok (expiresInMs - UInt64.ofNat (10 * millisecondsPerSecond))
  else .ok expiresInMs

/-- The delay of `cloud_manager_refresh_token_async` that the login handler
asks for; `none` when the token does not expire. -/
def refreshTokenDelay (asserts : Bool) (expiresIn : Int64) :
    Except TimingFault (Option UInt64) :=
  if 0 < expiresIn.toInt then do
    let product ← mulInt64 expiresIn.toInt 1000
    let delay ← cloudManagerCalculateRefreshTokenExpiration asserts
      (UInt64.ofNat product.toNat)
    .ok (some delay)
  else .ok none

/-- The token is refreshed later, and not after it has expired. -/
def RefreshesInTime (expiresIn : Int64) :
    Except TimingFault (Option UInt64) → Prop
  | .error _ => False
  | .ok none => expiresIn.toInt ≤ 0
  | .ok (some delay) =>
      0 < delay.toNat ∧ (delay.toNat : Int) ≤ expiresIn.toInt * 1000

theorem cloudManagerCalculateRefreshTokenExpiration_bounds (asserts : Bool)
    {expiresInMs : UInt64} (positive : 0 < expiresInMs.toNat) :
    ∃ delay,
      cloudManagerCalculateRefreshTokenExpiration asserts expiresInMs =
        .ok delay ∧
      0 < delay.toNat ∧ delay.toNat ≤ expiresInMs.toNat := by
  have take (amount : Nat) (less : amount < expiresInMs.toNat) :
      0 < (expiresInMs - UInt64.ofNat amount).toNat ∧
        (expiresInMs - UInt64.ofNat amount).toNat ≤ expiresInMs.toNat := by
    have bound : expiresInMs.toNat < 2 ^ 64 := expiresInMs.toNat_lt
    have same : (UInt64.ofNat amount).toNat = amount :=
      UInt64.toNat_ofNat_of_lt' (by
        show amount < 2 ^ 64
        omega)
    rw [UInt64.toNat_sub_of_le _ _ (by
      rw [UInt64.le_iff_toNat_le, same]
      omega), same]
    omega
  unfold cloudManagerCalculateRefreshTokenExpiration
  rw [decide_eq_true positive, assertTiming_true]
  simp only [bind, Except.bind]
  by_cases hour : millisecondsPerHour < expiresInMs.toNat
  · rw [if_pos hour]
    exact ⟨_, rfl, take _ (Nat.lt_trans (by decide) hour)⟩
  rw [if_neg hour]
  by_cases minutes : 4 * millisecondsPerMinute < expiresInMs.toNat
  · rw [if_pos minutes]
    exact ⟨_, rfl, take _ (Nat.lt_trans (by decide) minutes)⟩
  rw [if_neg minutes]
  by_cases seconds : 20 * millisecondsPerSecond < expiresInMs.toNat
  · rw [if_pos seconds]
    exact ⟨_, rfl, take _ (Nat.lt_trans (by decide) seconds)⟩
  rw [if_neg seconds]
  exact ⟨_, rfl, positive, Nat.le_refl _⟩

/-- `INT64_MAX` milliseconds in seconds -/
def mostExpiresIn : Int := 9223372036854775

theorem refreshesInTime_refreshTokenDelay (asserts : Bool)
    (expiresIn : Int64) :
    RefreshesInTime expiresIn (refreshTokenDelay asserts expiresIn) ↔
      expiresIn.toInt ≤ mostExpiresIn := by
  unfold refreshTokenDelay
  by_cases positive : 0 < expiresIn.toInt
  · rw [if_pos positive]
    by_cases small : expiresIn.toInt ≤ mostExpiresIn
    · refine iff_of_true ?_ small
      unfold mostExpiresIn at small
      rw [mulInt64_of_fits (by omega) (by omega)]
      have same : (UInt64.ofNat (expiresIn.toInt * 1000).toNat).toNat =
          (expiresIn.toInt * 1000).toNat :=
        UInt64.toNat_ofNat_of_lt' (by
          show _ < 2 ^ 64
          omega)
      obtain ⟨delay, computed, later, atMost⟩ :=
        @cloudManagerCalculateRefreshTokenExpiration_bounds asserts
          (UInt64.ofNat (expiresIn.toInt * 1000).toNat) (by
            rw [same]
            omega)
      show RefreshesInTime expiresIn
        ((cloudManagerCalculateRefreshTokenExpiration asserts
          (UInt64.ofNat (expiresIn.toInt * 1000).toNat)).bind _)
      rw [computed]
      refine ⟨later, ?_⟩
      rw [same] at atMost
      omega
    · refine iff_of_false ?_ small
      unfold mostExpiresIn at small
      rw [mulInt64_of_too_large (by omega)]
      exact id
  · rw [if_neg positive]
    unfold mostExpiresIn
    exact iff_of_true (by
      show expiresIn.toInt ≤ 0
      omega) (by omega)

/-- With every table that the timeouts give, the next attempt of the default
schedule is in time, and so is the refreshing of the token. -/
def DelaysInTime (asserts : Bool) (timeouts : Option (List UInt16))
    (counts : RetryCounts) (action : CloudAction) (isRetry : Bool)
    (random : UInt32) (expiresIn : Int64) : Prop :=
  (∀ table, ocCloudSetRetryTimeouts timeouts = some table →
    AttemptsInTime table (counts.next action isRetry).1
      (RetryCounts.cloudScheduleAction asserts table none counts action
        isRetry random).2) ∧
  RefreshesInTime expiresIn (refreshTokenDelay asserts expiresIn)

theorem delays_in_time (asserts : Bool) (timeouts : Option (List UInt16))
    (counts : RetryCounts) (action : CloudAction) (isRetry : Bool)
    (random : UInt32) (expiresIn : Int64) :
    DelaysInTime asserts timeouts counts action isRetry random expiresIn ↔
      (∀ table, ocCloudSetRetryTimeouts timeouts = some table →
        table.Lasts (counts.next action isRetry).1) ∧
      expiresIn.toInt ≤ mostExpiresIn := by
  refine and_congr ?_ (refreshesInTime_refreshTokenDelay asserts expiresIn)
  refine forall_congr' fun table => imp_congr_right fun _ => ?_
  exact attemptsInTime_defaultScheduleAction asserts table _ random

/-- A table with one entry of half a second is accepted. -/
theorem not_delaysInTime_halfSecond :
    ¬ DelaysInTime true (some [500]) ⟨0, 0⟩ .login false 7 3600 := by
  rintro ⟨attempts, -⟩
  exact attempts _ rfl

end IotivityLite
