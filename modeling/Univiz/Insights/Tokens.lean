import Mathlib.Algebra.Order.Floor.Ring
import Mathlib.Data.Rat.Floor
import Mathlib.Tactic.Linarith
import Univiz.Data.Span
import Univiz.Data.Transition

namespace Univiz.Insights

open Univiz.Data

/-! The token bucket of a provider: one Redis key holds the theoretical arrival time of the
next token, and a script reads and moves it.  Times are milliseconds and numbers are
exact. -/

structure TokenBucketConfig where
  capacity : ℕ
  refillPerSec : ℚ
  holds : 1 ≤ capacity
  refills : 0 < refillPerSec

/-- A grant stores the new arrival time with a time to live; a denial stores nothing. -/
inductive GcraReply
  | denied (waitMs : Int)
  | granted (newTat : ℚ) (pttl : Int)
deriving DecidableEq

def GcraReply.isGranted : GcraReply → Bool
  | .denied _ => false
  | .granted _ _ => true

namespace TokenBucketConfig

variable (config : TokenBucketConfig)

def emissionMs : ℚ := 1000 / config.refillPerSec

def dvtMs : ℚ := config.capacity * config.emissionMs

def gcra (stored : Option ℚ) (nowMs : Int) : GcraReply :=
  let tat := max (stored.getD 0) nowMs
  let newTat := tat + config.emissionMs
  let diffMs := newTat - nowMs
  if config.dvtMs < diffMs then .denied ⌊diffMs - config.dvtMs⌋
  else .granted newTat ⌈config.dvtMs + 1000⌉

end TokenBucketConfig

/-! One key over time. -/

structure StoredTat where
  tat : ℚ
  grantedMs : Int
  pttl : Int

structure BucketCall where
  nowMs : Int
  reply : GcraReply

/-- The key, the time before which no call comes any more because the key has expired, and
the calls so far, latest first. -/
structure BucketKey where
  stored : Option StoredTat := none
  notBefore : Option Int := none
  calls : List BucketCall := []

namespace BucketKey

def nows (key : BucketKey) : List Int := key.calls.map (·.nowMs)

def grants (key : BucketKey) : Nat := key.calls.countP (·.reply.isGranted)

def ask (config : TokenBucketConfig) (key : BucketKey) (nowMs : Int) : GcraReply :=
  config.gcra (key.stored.map (·.tat)) nowMs

end BucketKey

inductive BucketEvent
  | call (nowMs : Int)
  | expires

/-- The key expires only when the calls from then on come after its time to live. -/
def bucketStep (config : TokenBucketConfig) (key : BucketKey) : BucketEvent → Option BucketKey
  | .call nowMs =>
      if ∀ earliest ∈ key.notBefore, earliest ≤ nowMs then
        let reply := key.ask config nowMs
        some { key with
          stored := match reply with
            | .denied _ => key.stored
            | .granted newTat pttl => some ⟨newTat, nowMs, pttl⟩
          calls := ⟨nowMs, reply⟩ :: key.calls }
      else none
  | .expires =>
      key.stored.map fun stored =>
        let ended := stored.grantedMs + stored.pttl
        { key with stored := none, notBefore := some (max ended (key.notBefore.getD ended)) }

variable {config : TokenBucketConfig}

theorem TokenBucketConfig.emissionMs_pos : 0 < config.emissionMs :=
  div_pos (by norm_num) config.refills

theorem TokenBucketConfig.emissionMs_le_dvtMs : config.emissionMs ≤ config.dvtMs := by
  have whole : (1 : ℚ) ≤ config.capacity := by exact_mod_cast config.holds
  exact le_mul_of_one_le_left (le_of_lt config.emissionMs_pos) whole

/-- What a grant stores lies behind what was stored and behind the clock, but not further
behind the clock than the tolerance. -/
theorem TokenBucketConfig.gcra_granted {stored : Option ℚ} {nowMs : Int} {newTat : ℚ}
    {pttl : Int} (granted : config.gcra stored nowMs = .granted newTat pttl) :
    stored.getD 0 + config.emissionMs ≤ newTat ∧ nowMs + config.emissionMs ≤ newTat ∧
      newTat ≤ nowMs + config.dvtMs ∧ pttl = ⌈config.dvtMs + 1000⌉ := by
  simp only [TokenBucketConfig.gcra] at granted
  split at granted
  · cases granted
  · rename_i within
    cases granted
    have later := le_max_left (stored.getD 0) (nowMs : ℚ)
    have clock := le_max_right (stored.getD 0) (nowMs : ℚ)
    refine ⟨?_, ?_, ?_, rfl⟩ <;> linarith only [later, clock, within]

theorem TokenBucketConfig.gcra_granted_of {stored : Option ℚ} {nowMs : Int}
    (within : stored.getD 0 + config.emissionMs ≤ nowMs + config.dvtMs) :
    (config.gcra stored nowMs).isGranted = true := by
  have room : max (stored.getD 0) (nowMs : ℚ) + config.emissionMs ≤ nowMs + config.dvtMs := by
    rcases max_choice (stored.getD 0) (nowMs : ℚ) with kept | raised
    · rwa [kept]
    · rw [raised]
      exact add_le_add_right config.emissionMs_le_dvtMs _
  simp only [TokenBucketConfig.gcra]
  split
  · rename_i beyond
    linarith only [beyond, room]
  · rfl

/-- The hint of a denial falls short of the missing time by less than a millisecond. -/
theorem TokenBucketConfig.gcra_denied {stored : Option ℚ} {nowMs waitMs : Int}
    (denied : config.gcra stored nowMs = .denied waitMs) :
    0 ≤ waitMs ∧ stored.getD 0 + config.emissionMs < (nowMs + waitMs + 1 : Int) + config.dvtMs := by
  simp only [TokenBucketConfig.gcra] at denied
  split at denied
  · rename_i beyond
    cases denied
    have later := le_max_left (stored.getD 0) (nowMs : ℚ)
    refine ⟨Int.floor_nonneg.mpr (by linarith only [beyond]), ?_⟩
    have short := Int.lt_floor_add_one
      (max (stored.getD 0) (nowMs : ℚ) + config.emissionMs - nowMs - config.dvtMs)
    push_cast
    linarith only [short, later]
  · cases denied

end Univiz.Insights
