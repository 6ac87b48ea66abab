import Mathlib.Tactic.FieldSimp
import Mathlib.Tactic.Ring
import Univiz.FairShare.Bucket

namespace Univiz.FairShare

open Univiz.Data

/-! How much a bucket admits. -/

variable {config : BucketConfig} {redis next : Redis} {event : Event}

/-- The take's clock is not behind the one stored, and shows at least the time that the
tokens of a hash dropped since need to fill up. -/
def Event.InOrder (config : BucketConfig) (redis : Redis) : Event → Prop
  | .take cost nowMs _ =>
      0 ≤ cost ∧ ∀ last ∈ redis.log.head?, last.nowMs ≤ nowMs ∧
        (redis.bucket = none →
          config.burst ≤ last.left + config.ratePerSec * (nowMs - last.nowMs : Int) / 1000)
  | .passes _ => True
  | .expires => True

instance : DecidablePred (Event.InOrder config redis)
  | .take cost nowMs _ =>
      inferInstanceAs (Decidable (0 ≤ cost ∧ ∀ last ∈ redis.log.head?, last.nowMs ≤ nowMs ∧
        (redis.bucket = none →
          config.burst ≤ last.left + config.ratePerSec * (nowMs - last.nowMs : Int) / 1000)))
  | .passes _ => isTrue trivial
  | .expires => isTrue trivial

/-- What the evaluations so far have left behind. -/
structure Redis.Accounted (config : BucketConfig) (redis : Redis) : Prop where
  stored : ∀ bucket ∈ redis.bucket, ∃ last ∈ redis.log.head?, bucket = ⟨last.left, last.nowMs⟩
  bounded : ∀ last ∈ redis.log.head?, 0 ≤ last.left ∧ last.left ≤ config.burst
  latest : ∀ last ∈ redis.log.head?, ∀ nowMs ∈ redis.nows, nowMs ≤ last.nowMs
  paid : ∀ last ∈ redis.log.head?, ∀ low : Int, (∀ nowMs ∈ redis.nows, low ≤ nowMs) →
    redis.admitted + last.left ≤
      config.burst + config.ratePerSec * (last.nowMs - low : Int) / 1000

theorem BucketConfig.refilled_le {bucket : Bucket} {nowMs : Int}
    (order : bucket.ts ≤ nowMs) :
    config.refilled (some bucket) nowMs ≤
      bucket.tokens + config.ratePerSec * (nowMs - bucket.ts : Int) / 1000 := by
  have elapsed : (0 : ℚ) ≤ ((nowMs - bucket.ts : Int) : ℚ) := by exact_mod_cast Int.sub_nonneg.mpr order
  simp only [BucketConfig.refilled, Option.getD_some]
  split
  · refine le_trans (min_le_right _ _) (le_of_eq ?_)
    ring
  · have credited : 0 ≤ config.ratePerSec * ((nowMs - bucket.ts : Int) : ℚ) / 1000 :=
      div_nonneg (mul_nonneg (le_of_lt config.refills) elapsed) (by norm_num)
    linarith only [credited]

theorem BucketConfig.refilled_bounded {bucket : Option Bucket} (nowMs : Int)
    (bounded : ∀ stored ∈ bucket, 0 ≤ stored.tokens ∧ stored.tokens ≤ config.burst) :
    0 ≤ config.refilled bucket nowMs ∧ config.refilled bucket nowMs ≤ config.burst := by
  have full : (0 : ℚ) ≤ config.burst := Nat.cast_nonneg _
  cases bucket with
  | none => simp [BucketConfig.refilled, full]
  | some bucket =>
      have ⟨lower, upper⟩ := bounded bucket rfl
      simp only [BucketConfig.refilled, Option.getD_some]
      split
      · rename_i elapsed
        have credited := mul_nonneg (le_of_lt elapsed) (le_of_lt config.refills)
        exact ⟨le_min full (by linarith only [lower, credited]), min_le_left _ _⟩
      · exact ⟨lower, upper⟩

theorem Redis.Accounted.bucket_bounded (accounted : redis.Accounted config) :
    ∀ bucket ∈ redis.bucket, 0 ≤ bucket.tokens ∧ bucket.tokens ≤ config.burst := by
  intro bucket stored
  obtain ⟨last, written, rfl⟩ := accounted.stored bucket stored
  exact accounted.bounded last written

/-- The tokens that a take in order finds are paid for by the time since the first. -/
theorem Redis.Accounted.found (accounted : redis.Accounted config) {cost nowMs low : Int}
    {contact : Contact} (inOrder : Event.InOrder config redis (.take cost nowMs contact))
    (lowest : ∀ reading ∈ nowMs :: redis.nows, low ≤ reading) :
    redis.admitted + config.refilled redis.bucket nowMs ≤
      config.burst + config.ratePerSec * (nowMs - low : Int) / 1000 := by
  have ⟨first, others⟩ := List.forall_mem_cons.mp lowest
  cases written : redis.log.head? with
  | none =>
      have empty : redis.log = [] := List.head?_eq_none_iff.mp written
      have absent : redis.bucket = none := by
        cases bucket : redis.bucket with
        | none => rfl
        | some stored =>
            obtain ⟨last, logged, -⟩ := accounted.stored stored bucket
            cases written.symm.trans logged
      have spared : (0 : ℚ) ≤ ((nowMs - low : Int) : ℚ) := by
        exact_mod_cast Int.sub_nonneg.mpr first
      have credited : 0 ≤ config.ratePerSec * ((nowMs - low : Int) : ℚ) / 1000 :=
        div_nonneg (mul_nonneg (le_of_lt config.refills) spared) (by norm_num)
      simp [Redis.admitted, empty, absent, BucketConfig.refilled]
      push_cast at credited
      exact credited
  | some last =>
      have ⟨order, dropped⟩ := inOrder.2 last written
      have refill : config.refilled redis.bucket nowMs ≤
          last.left + config.ratePerSec * (nowMs - last.nowMs : Int) / 1000 := by
        cases bucket : redis.bucket with
        | none =>
            have full : config.refilled none nowMs = config.burst := by
              simp [BucketConfig.refilled]
            rw [full]
            exact dropped bucket
        | some stored =>
            obtain ⟨last', logged, rfl⟩ := accounted.stored stored bucket
            cases written.symm.trans logged
            exact BucketConfig.refilled_le order
      have paid := accounted.paid last written low others
      have spent : config.ratePerSec * ((nowMs - low : Int) : ℚ) / 1000 =
          config.ratePerSec * ((nowMs - last.nowMs : Int) : ℚ) / 1000 +
            config.ratePerSec * ((last.nowMs - low : Int) : ℚ) / 1000 := by
        push_cast
        ring
      linarith only [refill, paid, spent]

theorem BucketConfig.luaTake_spec (bucket : Option Bucket) (cost nowMs : Int) :
    (config.luaTake bucket cost nowMs).bucket.ts = nowMs ∧
      ((config.luaTake bucket cost nowMs).reply.allowed = true ∧
          (cost : ℚ) ≤ config.refilled bucket nowMs ∧
          (config.luaTake bucket cost nowMs).bucket.tokens =
            config.refilled bucket nowMs - cost ∨
        (config.luaTake bucket cost nowMs).reply.allowed = false ∧
          (config.luaTake bucket cost nowMs).bucket.tokens = config.refilled bucket nowMs) := by
  simp only [BucketConfig.luaTake]
  split
  · rename_i enough
    exact ⟨rfl, .inl ⟨rfl, enough, rfl⟩⟩
  · exact ⟨rfl, .inr ⟨rfl, rfl⟩⟩

theorem BucketConfig.refilled_later {tokens : ℚ} {nowMs seconds : Int} (later : 0 < seconds) :
    config.refilled (some ⟨tokens, nowMs⟩) (nowMs + 1000 * seconds) =
      min (config.burst : ℚ) (tokens + seconds * config.ratePerSec) := by
  have elapsed : ((nowMs + 1000 * seconds - nowMs : Int) : ℚ) / 1000 = seconds := by
    rw [add_sub_cancel_left]
    push_cast
    ring
  have positive : (0 : ℚ) < seconds := by exact_mod_cast later
  simp only [BucketConfig.refilled, Option.getD_some]
  rw [elapsed, if_pos positive]

/-- A caller that is turned away is let through when it comes again after the seconds that it is
told, if nobody else takes tokens in between. -/
theorem take_retried {cost nowMs seconds : Int} {workspaceId : String} (named : workspaceId ≠ "")
    (fits : (cost : ℚ) ≤ config.burst)
    (turnedAway : take (some config) workspaceId .answered
      (fun config => (config.luaTake redis.bucket cost nowMs).reply) = ⟨false, seconds⟩)
    (stepped : step config redis (.take cost nowMs .answered) = some next) :
    take (some config) workspaceId .answered
      (fun config => (config.luaTake next.bucket cost (nowMs + 1000 * seconds)).reply) =
        ⟨true, 0⟩ := by
  have stored : next.bucket = some (config.luaTake redis.bucket cost nowMs).bucket := by
    cases stepped
    rfl
  have answered (script : BucketConfig → Reply) :
      take (some config) workspaceId .answered script = ⟨(script config).allowed,
        if (script config).allowed then 0
        else max 1 ⌈((script config).retryAfterMs : ℚ) / 1000⌉⟩ := by
    simp [FairShare.take, named]
  rw [answered, TakeResult.mk.injEq] at turnedAway
  obtain ⟨refused, waits⟩ := turnedAway
  by_cases enough : (cost : ℚ) ≤ config.refilled redis.bucket nowMs
  · rw [BucketConfig.luaTake, if_pos enough] at refused
    cases refused
  · have left : config.luaTake redis.bucket cost nowMs =
        ⟨⟨false, ⌈(cost - config.refilled redis.bucket nowMs) / config.ratePerSec * 1000⌉⟩,
          ⟨config.refilled redis.bucket nowMs, nowMs⟩,
          max (⌈config.burst / config.ratePerSec⌉ + 10) 60⟩ := by
      rw [BucketConfig.luaTake, if_neg enough]
    rw [left] at waits stored
    simp only [Bool.false_eq_true, if_false] at waits
    generalize config.refilled redis.bucket nowMs = tokens at waits stored
    have soon : 1 ≤ seconds := waits ▸ le_max_left _ _
    -- the wait covers the time that the missing tokens take
    have covers : (cost - tokens) / config.ratePerSec * 1000 ≤ 1000 * (seconds : ℚ) := by
      have rounded : ((⌈(cost - tokens) / config.ratePerSec * 1000⌉ : ℚ)) / 1000 ≤ seconds :=
        Int.ceil_le.mp (waits ▸ le_max_right _ _)
      have milliseconds := Int.le_ceil ((cost - tokens) / config.ratePerSec * 1000)
      linarith only [rounded, milliseconds]
    have refills : (cost : ℚ) ≤ tokens + seconds * config.ratePerSec := by
      have missing : (cost - tokens) / config.ratePerSec ≤ seconds := by linarith only [covers]
      rw [div_le_iff₀ config.refills] at missing
      linarith only [missing]
    have again : (cost : ℚ) ≤ config.refilled (some ⟨tokens, nowMs⟩) (nowMs + 1000 * seconds) := by
      rw [BucketConfig.refilled_later soon]
      exact le_min fits refills
    rw [answered, stored, BucketConfig.luaTake, if_pos again]
    rfl

theorem Redis.Accounted.take (accounted : redis.Accounted config) {cost nowMs : Int}
    {contact : Contact} (inOrder : Event.InOrder config redis (.take cost nowMs contact))
    (stepped : step config redis (.take cost nowMs contact) = some next) :
    next.Accounted config := by
  simp only [step] at stepped
  split at stepped
  · cases stepped
    have found := @accounted.found _ _ cost nowMs
    have ⟨lower, upper⟩ := config.refilled_bounded nowMs accounted.bucket_bounded
    have charge : (0 : ℚ) ≤ cost := by exact_mod_cast inOrder.1
    have ⟨stamped, outcome⟩ := config.luaTake_spec redis.bucket cost nowMs
    refine ⟨?_, ?_, ?_, ?_⟩
    · intro bucket stored
      cases stored
      exact ⟨_, rfl, congrArg (Bucket.mk _) stamped⟩
    · intro last written
      cases written
      rcases outcome with ⟨-, enough, left⟩ | ⟨-, left⟩
      · simp only [left]
        exact ⟨by linarith only [enough], by linarith only [upper, charge]⟩
      · simp only [left]
        exact ⟨lower, upper⟩
    · intro last written reading member
      cases written
      rcases List.mem_cons.mp member with rfl | earlier
      · exact Int.le_refl _
      · cases logged : redis.log.head? with
        | none =>
            have empty : redis.log = [] := List.head?_eq_none_iff.mp logged
            simp [empty] at earlier
        | some last =>
            exact Int.le_trans (accounted.latest last logged reading earlier)
              (inOrder.2 last logged).1
    · intro last written low lowest
      cases written
      have bound := found inOrder lowest
      rcases outcome with ⟨allowed, -, left⟩ | ⟨denied, left⟩
      · simp only [Redis.admitted, allowed, List.filter_cons_of_pos, List.map_cons,
          List.sum_cons, left, Int.cast_add] at bound ⊢
        linarith only [bound]
      · simp only [Redis.admitted, denied, left] at bound ⊢
        simpa using bound
  · cases stepped
    exact accounted

theorem Redis.Accounted.step (accounted : redis.Accounted config)
    (inOrder : event.InOrder config redis)
    (stepped : FairShare.step config redis event = some next) : next.Accounted config := by
  cases event with
  | take cost nowMs contact => exact accounted.take inOrder stepped
  | passes ms =>
      cases stepped
      exact ⟨accounted.stored, accounted.bounded, accounted.latest, accounted.paid⟩
  | expires =>
      simp only [FairShare.step] at stepped
      split at stepped
      · cases stepped
        refine ⟨?_, accounted.bounded, accounted.latest, accounted.paid⟩
        intro bucket stored
        cases stored
      · cases stepped

theorem Redis.Accounted.fair (accounted : redis.Accounted config) : redis.Fair config := by
  refine ⟨?_, accounted.bucket_bounded⟩
  cases written : redis.log.head? with
  | none =>
      have empty : redis.log = [] := List.head?_eq_none_iff.mp written
      simp [Redis.admitted, Redis.nows, empty, span_nil]
  | some last =>
      have nonempty : redis.nows ≠ [] := by
        intro empty
        rw [Redis.nows, List.map_eq_nil_iff] at empty
        simp [empty] at written
      obtain ⟨low, -, high, highest, distance, within⟩ := exists_span nonempty
      have member : last.nowMs ∈ redis.nows :=
        List.mem_map_of_mem (List.mem_of_head? written)
      have top : high = last.nowMs :=
        Int.le_antisymm (accounted.latest last written high highest) (within _ member).2
      have paid := accounted.paid last written low fun nowMs member => (within nowMs member).1
      have left := (accounted.bounded last written).1
      rw [distance, top]
      linarith only [paid, left]

theorem accounted_start : ({} : Redis).Accounted config where
  stored _ none := by cases none
  bounded _ none := by cases none
  latest _ none := by cases none
  paid _ none := by cases none

theorem run_in_order_fair {events : List Event} {last : Redis}
    (inOrder : Meets (step config) (Event.InOrder config) {} events)
    (ran : run (step config) {} events = some last) : last.Fair config :=
  (run_invariant (Redis.Accounted config)
    (fun _ _ _ accounted inOrder stepped => accounted.step inOrder stepped)
    accounted_start inOrder ran).fair

def oneASecond : BucketConfig := ⟨1, 1, by norm_num⟩

theorem in_order_fair : ∃ last : Redis,
    run (step oneASecond) {} [.take 1 0 .answered, .take 1 1000 .answered] = some last ∧
      last.admitted = 2 ∧ last.Fair oneASecond := by
  have ended : (run (step oneASecond) {} [.take 1 0 .answered, .take 1 1000 .answered]).map
      (fun last => last.admitted) = some 2 := by decide +kernel
  obtain ⟨last, ran, admitted⟩ := Option.map_eq_some_iff.mp ended
  refine ⟨last, ran, admitted, run_in_order_fair ?_ ran⟩
  decide +kernel

/-- Two servers' clocks differ by a second: the refused takes of the slow one put the stored
time back, so the same second is credited again. -/
def alternating : List Event :=
  [.take 1 1000 .answered, .take 1 0 .answered, .take 1 1000 .answered, .take 1 0 .answered,
    .take 1 1000 .answered]

theorem second_credited_twice :
    ¬ ∃ config ∈ [oneASecond], ∃ events ∈ [alternating], ∀ last,
      run (step config) {} events = some last → last.Fair config := by
  simp only [List.mem_singleton, exists_eq_left]
  intro fair
  have outcome : (run (step oneASecond) {} alternating).map
      (fun last => (last.admitted, span last.nows)) = some (3, 1000) := by decide +kernel
  obtain ⟨last, ran, values⟩ := Option.map_eq_some_iff.mp outcome
  obtain ⟨admitted, distance⟩ := Prod.mk.injEq .. ▸ values
  have bound := (fair last ran).1
  rw [admitted, distance] at bound
  norm_num [oneASecond] at bound

end Univiz.FairShare
