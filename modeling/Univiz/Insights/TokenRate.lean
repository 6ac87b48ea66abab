import Mathlib.Tactic.FieldSimp
import Mathlib.Tactic.Ring
import Univiz.Insights.Tokens

namespace Univiz.Insights

open Univiz.Data

/-! How many tokens a provider's bucket grants. -/

variable {config : TokenBucketConfig} {key next : BucketKey} {event : BucketEvent}

namespace BucketKey

/-- The grants so far lie an emission interval apart from some time on. -/
def Reaches (config : TokenBucketConfig) (key : BucketKey) (time : ℚ) : Prop :=
  ∀ low : Int, (∀ nowMs ∈ key.nows, low ≤ nowMs) → low + key.grants * config.emissionMs ≤ time

/-- What the calls so far have left behind. -/
structure Paced (config : TokenBucketConfig) (key : BucketKey) : Prop where
  stored : ∀ stored ∈ key.stored, key.Reaches config stored.tat ∧
    config.emissionMs ≤ stored.tat ∧ stored.tat ≤ stored.grantedMs + config.dvtMs ∧
    stored.pttl = ⌈config.dvtMs + 1000⌉
  absent : key.stored = none → key.grants ≠ 0 → ∃ earliest ∈ key.notBefore,
    key.Reaches config earliest
  latest : key.grants ≠ 0 → ∃ nowMs ∈ key.nows, key.Reaches config (nowMs + config.dvtMs)

/-- After a denial that is repeated when its hint says, a grant. -/
def HintsSuffice (config : TokenBucketConfig) (key : BucketKey) : Prop :=
  ∀ nowMs waitMs, key.ask config nowMs = .denied waitMs →
    ∀ idle, (∀ event ∈ idle, event = .expires) →
      ∀ last, run (bucketStep config) key
          (.call nowMs :: idle ++ [.call (nowMs + waitMs + 1)]) = some last →
        ∃ call ∈ last.calls.head?, call.reply.isGranted = true

theorem Paced.found (paced : key.Paced config) {nowMs low : Int}
    (came : ∀ earliest ∈ key.notBefore, earliest ≤ nowMs) (first : low ≤ nowMs)
    (lowest : ∀ reading ∈ key.nows, low ≤ reading) :
    low + key.grants * config.emissionMs ≤
      max ((key.stored.map (·.tat)).getD 0) (nowMs : ℚ) := by
  cases stored : key.stored with
  | some stored' => exact le_max_of_le_left ((paced.stored stored' stored).1 low lowest)
  | none =>
      refine le_max_of_le_right ?_
      by_cases none : key.grants = 0
      · simpa [none] using first
      · obtain ⟨earliest, expired, reaches⟩ := paced.absent stored none
        refine le_trans (reaches low lowest) ?_
        exact_mod_cast came earliest expired

/-- The key lives at least until the arrival time it stores. -/
theorem Paced.outlived (paced : key.Paced config) {stored : StoredTat}
    (lookup : key.stored = some stored) :
    stored.tat ≤ (stored.grantedMs + stored.pttl : Int) := by
  have ⟨_, _, within, lives⟩ := paced.stored stored lookup
  have lived := Int.le_ceil (config.dvtMs + 1000)
  rw [← lives] at lived
  push_cast
  linarith only [within, lived]

theorem Paced.call_denied (paced : key.Paced config) {nowMs waitMs : Int} :
    ({ key with calls := ⟨nowMs, .denied waitMs⟩ :: key.calls } : BucketKey).Paced config := by
  have kept : ∀ {time}, key.Reaches config time →
      ({ key with calls := ⟨nowMs, .denied waitMs⟩ :: key.calls } : BucketKey).Reaches
        config time := by
    intro time reaches low lowest
    exact reaches low (List.forall_mem_cons.mp lowest).2
  refine ⟨?_, ?_, ?_⟩
  · intro stored lookup
    have ⟨reaches, rest⟩ := paced.stored stored lookup
    exact ⟨kept reaches, rest⟩
  · intro none some'
    obtain ⟨earliest, expired, reaches⟩ := paced.absent none some'
    exact ⟨earliest, expired, kept reaches⟩
  · intro some'
    obtain ⟨nowMs', member, reaches⟩ := paced.latest some'
    exact ⟨nowMs', List.mem_cons_of_mem _ member, kept reaches⟩

theorem Paced.call_granted (paced : key.Paced config) {nowMs : Int} {newTat : ℚ} {pttl : Int}
    (came : ∀ earliest ∈ key.notBefore, earliest ≤ nowMs)
    (granted : key.ask config nowMs = .granted newTat pttl) :
    ({ key with
        stored := some ⟨newTat, nowMs, pttl⟩
        calls := ⟨nowMs, .granted newTat pttl⟩ :: key.calls } : BucketKey).Paced config := by
  have ⟨later, behind, within, lives⟩ := TokenBucketConfig.gcra_granted granted
  have interval := config.emissionMs_pos
  have reaches : ∀ low : Int, (∀ reading ∈ nowMs :: key.nows, low ≤ reading) →
      low + ((key.grants + 1 : ℕ) : ℚ) * config.emissionMs ≤ newTat := by
    intro low lowest
    have ⟨first, others⟩ := List.forall_mem_cons.mp lowest
    have found := paced.found came first others
    push_cast
    rcases max_choice ((key.stored.map (·.tat)).getD 0) (nowMs : ℚ) with kept | raised
    · rw [kept] at found
      linarith only [found, later]
    · rw [raised] at found
      linarith only [found, behind]
  have counted : ({ key with
      stored := some ⟨newTat, nowMs, pttl⟩
      calls := ⟨nowMs, .granted newTat pttl⟩ :: key.calls } : BucketKey).grants =
        key.grants + 1 := by
    simp [grants, GcraReply.isGranted]
  refine ⟨?_, nofun, ?_⟩
  · intro stored lookup
    cases lookup
    refine ⟨?_, ?_, within, lives⟩
    · intro low lowest
      rw [counted]
      exact reaches low lowest
    · have start : 0 ≤ (key.stored.map (·.tat)).getD 0 := by
        cases stored : key.stored with
        | none => exact le_refl _
        | some stored' => exact le_trans (le_of_lt interval) (paced.stored stored' stored).2.1
      linarith only [later, start]
  · intro _
    refine ⟨nowMs, List.mem_cons_self, ?_⟩
    intro low lowest
    rw [counted]
    exact le_trans (reaches low lowest) within

theorem Paced.step (paced : key.Paced config)
    (stepped : bucketStep config key event = some next) : next.Paced config := by
  cases event with
  | call nowMs =>
      simp only [bucketStep] at stepped
      split at stepped
      · rename_i came
        cases stepped
        cases reply : key.ask config nowMs with
        | denied waitMs => exact paced.call_denied
        | granted newTat pttl => exact paced.call_granted came reply
      · cases stepped
  | expires =>
      obtain ⟨stored, lookup, rfl⟩ := Option.map_eq_some_iff.mp stepped
      have reaches := (paced.stored stored lookup).1
      have outlived := paced.outlived lookup
      refine ⟨nofun, ?_, paced.latest⟩
      intro _ _
      refine ⟨_, rfl, ?_⟩
      intro low lowest
      refine le_trans (reaches low lowest) (le_trans outlived ?_)
      exact_mod_cast le_max_left _ _

theorem Paced.grants_le (paced : key.Paced config) :
    (key.grants : ℚ) ≤ config.capacity + config.refillPerSec * span key.nows / 1000 := by
  by_cases empty : key.nows = []
  · have none : key.grants = 0 := by
      simp [grants, List.map_eq_nil_iff.mp empty]
    simp [none, empty, span_nil]
  · obtain ⟨low, -, high, -, distance, within⟩ := exists_span empty
    rw [distance]
    have spread : (low : ℚ) ≤ high := by
      obtain ⟨reading, member⟩ := List.exists_mem_of_ne_nil _ empty
      exact_mod_cast Int.le_trans (within reading member).1 (within reading member).2
    have counted : low + key.grants * config.emissionMs ≤ high + config.dvtMs := by
      by_cases none : key.grants = 0
      · have tolerance : 0 ≤ config.dvtMs :=
          le_trans (le_of_lt config.emissionMs_pos) config.emissionMs_le_dvtMs
        rw [none]
        push_cast
        linarith only [spread, tolerance]
      · obtain ⟨nowMs, member, reaches⟩ := paced.latest none
        have bound := reaches low fun reading member => (within reading member).1
        have top : (nowMs : ℚ) ≤ high := by exact_mod_cast (within nowMs member).2
        linarith only [bound, top]
    have unit : config.emissionMs * config.refillPerSec = 1000 :=
      div_mul_cancel₀ _ (ne_of_gt config.refills)
    have scaled := mul_le_mul_of_nonneg_right counted (le_of_lt config.refills)
    have total : (key.grants : ℚ) * 1000 ≤
        config.capacity * 1000 + config.refillPerSec * (high - low : Int) := by
      have granted : (key.grants : ℚ) * 1000 =
          key.grants * config.emissionMs * config.refillPerSec := by rw [mul_assoc, unit]
      have burst : (config.capacity : ℚ) * 1000 = config.dvtMs * config.refillPerSec := by
        rw [TokenBucketConfig.dvtMs, mul_assoc, unit]
      rw [granted, burst]
      push_cast
      linarith only [scaled]
    linarith only [total]

theorem Paced.hintsSuffice (paced : key.Paced config) : key.HintsSuffice config := by
  intro nowMs waitMs denied idle expiries last ran
  obtain ⟨waited, stepped, later⟩ := run_cons.mp ran
  have ⟨hint, room⟩ := TokenBucketConfig.gcra_denied denied
  simp only [bucketStep, denied] at stepped
  split at stepped
  · cases stepped
    cases idle with
    | nil =>
        obtain ⟨again, repeated, ended⟩ := run_cons.mp later
        cases ended
        simp only [bucketStep] at repeated
        split at repeated
        · cases repeated
          exact ⟨_, rfl, TokenBucketConfig.gcra_granted_of (le_of_lt room)⟩
        · cases repeated
    | cons first others =>
        rw [expiries first List.mem_cons_self] at later
        obtain ⟨expired, dropped, later⟩ := run_cons.mp later
        obtain ⟨stored, lookup, rfl⟩ := Option.map_eq_some_iff.mp dropped
        cases others with
        | cons second others =>
            rw [expiries second (List.mem_cons_of_mem _ List.mem_cons_self)] at later
            cases later
        | nil =>
            obtain ⟨again, repeated, ended⟩ := run_cons.mp later
            cases ended
            simp only [bucketStep] at repeated
            split at repeated
            · rename_i came
              cases repeated
              have behind := (paced.stored stored lookup).2.1
              have outlived := paced.outlived lookup
              have gone : ((stored.grantedMs + stored.pttl : Int) : ℚ) ≤
                  (nowMs + waitMs + 1 : Int) := by
                exact_mod_cast Int.le_trans (le_max_left _ _) (came _ rfl)
              have interval := config.emissionMs_pos
              have spacing := config.emissionMs_le_dvtMs
              refine ⟨_, rfl, TokenBucketConfig.gcra_granted_of ?_⟩
              simp only [Option.map_none, Option.getD_none]
              linarith only [behind, outlived, gone, interval, spacing]
            · cases repeated
  · cases stepped

end BucketKey

/-- A bucket grants no more than its capacity and its rate allow, and its hints suffice. -/
theorem run_grants_paced {events : List BucketEvent}
    (ran : run (bucketStep config) {} events = some key) :
    (key.grants : ℚ) ≤ config.capacity + config.refillPerSec * span key.nows / 1000 ∧
      key.HintsSuffice config := by
  have start : ({} : BucketKey).Paced config :=
    ⟨nofun, fun _ some' => absurd rfl some', fun some' => absurd rfl some'⟩
  have free : Meets (bucketStep config) (fun _ _ => True) {} events :=
    meets_of_forall fun _ _ _ => trivial
  have paced := run_invariant (BucketKey.Paced config)
    (fun _ _ _ paced _ stepped => paced.step stepped) start free ran
  exact ⟨paced.grants_le, paced.hintsSuffice⟩

def twoASecond : TokenBucketConfig := ⟨2, 2, by norm_num, by norm_num⟩

/-- Two calls of a burst, one that is denied and repeated, and one after the key has
expired; the clocks are out of order. -/
def bursts : List BucketEvent :=
  [.call 1000, .call 900, .call 1000, .call 1501, .expires, .call 3600]

theorem bursts_paced : ∃ key : BucketKey, run (bucketStep twoASecond) {} bursts = some key ∧
    key.grants = 4 ∧
    (key.grants : ℚ) ≤ twoASecond.capacity + twoASecond.refillPerSec * span key.nows / 1000 ∧
    key.HintsSuffice twoASecond := by
  have ended : (run (bucketStep twoASecond) {} bursts).map (fun key => key.grants) = some 4 := by
    decide +kernel
  obtain ⟨key, ran, grants⟩ := Option.map_eq_some_iff.mp ended
  exact ⟨key, ran, grants, run_grants_paced ran⟩

end Univiz.Insights
