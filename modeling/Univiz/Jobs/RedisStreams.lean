import Mathlib.Data.List.Enum
import Univiz.Jobs.Broker

namespace Univiz.Jobs

open Univiz.Data

/-! `RedisStreamsJobBroker`, whose subscribers hold the id of a stream entry.

The ids of a stream grow with its entries, so the entries are numbered from 1 on. -/

namespace RedisStreams

variable {π : Type}

abbrev Entry (π : Type) := JobEvent π × Nat

def backfillPage : Nat := 500

def entries (log : JobLog π) : List (Entry π) := log.retained.zipIdx (log.trimmed.length + 1)

/-- `XRANGE key - + COUNT 500`. -/
def xrange (log : JobLog π) : List (Entry π) := (entries log).take backfillPage

def after (log : JobLog π) (lastId : Nat) : List (Entry π) :=
  (entries log).filter fun entry => lastId < entry.2

/-- `XREAD COUNT 500 STREAMS key last_id`. -/
def xread (log : JobLog π) (lastId : Nat) : List (Entry π) := (after log lastId).take backfillPage

/-- Where `_stream_iter` is: before its first step, in the loop over the page that it
has read, or in the live tail with the entries that it has fetched. -/
inductive Cursor (π : Type) where
  | idle
  | replaying (fromSequence : Int) (page rest : List (Entry π)) (lastId : Nat)
      (replayedAny : Bool)
  | tailing (lastId : Nat) (fetched : List (Entry π))
  | raised

abbrev Subscriber (π : Type) := Subscription π (Cursor π)

def asked (fromSequence : Int) (entry : Entry π) : Bool := entry.1.since fromSequence

/-- Nothing was replayed, and the first entry is newer than the event asked for. -/
def refuses (fromSequence : Int) (page : List (Entry π)) (replayedAny : Bool) : Bool :=
  !replayedAny && page.head?.any fun oldest => fromSequence < oldest.1.sequence

/-- The subscriber asks for the next event, or waits for an answer of the server. -/
def poll (fromSequence : Option Int) (subscriber : Subscriber π) : Subscriber π :=
  match subscriber.cursor with
  | .idle =>
      let started := { subscriber with contract := some (.start subscriber.log) }
      match fromSequence with
      | none => started.moves (.tailing 0 [])
      | some fromSequence =>
          let page := xrange subscriber.log
          started.moves (.replaying fromSequence page page 0 false)
  | .replaying fromSequence page (entry :: rest) lastId replayedAny =>
      if asked fromSequence entry then
        subscriber.yields entry.1 (.replaying fromSequence page rest entry.2 true)
      else subscriber.moves (.replaying fromSequence page rest lastId replayedAny)
  | .replaying fromSequence page [] lastId replayedAny =>
      if refuses fromSequence page replayedAny then subscriber.moves .raised
      else subscriber.moves (.tailing lastId [])
  | .tailing _ (entry :: rest) => subscriber.yields entry.1 (.tailing entry.2 rest)
  | .tailing lastId [] => subscriber.moves (.tailing lastId (xread subscriber.log lastId))
  | .raised => subscriber

/-- `XADD MAXLEN ~` drops as many entries as Redis likes, but none of the newest. -/
inductive Event (π : Type) where
  | publish (event : JobEvent π) (drops : Nat)
  | poll

def step (maxLen : Nat) (fromSequence : Option Int) (subscriber : Subscriber π) :
    Event π → Option (Subscriber π)
  | .publish event drops =>
      if drops = 0 ∨ maxLen + drops ≤ subscriber.log.retained.length + 1 then
        (subscriber.log.publish event drops).map fun log => subscriber.published log event
      else none
  | .poll => some (poll fromSequence subscriber)

def start (log : JobLog π) : Subscriber π := ⟨log, .idle, none, []⟩

def raised (subscriber : Subscriber π) : Bool :=
  match subscriber.cursor with
  | .raised => true
  | .idle | .replaying _ _ _ _ _ | .tailing _ _ => false

def waiting (subscriber : Subscriber π) : Bool :=
  match subscriber.cursor with
  | .tailing lastId [] => (after subscriber.log lastId).isEmpty
  | .tailing _ _ | .idle | .replaying _ _ _ _ _ | .raised => false

def lastOf : Nat → List (Entry π) → Nat
  | lastId, [] => lastId
  | _, entry :: rest => lastOf entry.2 rest

/-- The last entry that the subscriber has got from the server. -/
def seen : Cursor π → Nat
  | .replaying _ page _ _ _ => lastOf 0 page
  | .tailing lastId fetched => lastOf lastId fetched
  | .idle | .raised => 0

/-- The entry was published after the subscription, or the subscriber asks for it. -/
def owes (contract : Contract π) (fromSequence : Option Int) (entry : Entry π) : Bool :=
  decide (contract.trimmed.length + contract.retained.length < entry.2) ||
    fromSequence.any fun fromSequence => asked fromSequence entry

/-- At the subscription no event that is asked for has been trimmed, and an XREAD finds
only entries that are owed behind its id. -/
def AllowedPoll (fromSequence : Option Int) (subscriber : Subscriber π) : Cursor π → Prop
  | .idle => ∀ sequence, fromSequence = some sequence →
      ¬ ∃ event ∈ subscriber.log.trimmed, event.since sequence = true
  | .tailing lastId [] => ∀ contract, subscriber.contract = some contract →
      ∀ entry ∈ after subscriber.log lastId, owes contract fromSequence entry = true
  | .tailing _ _ | .replaying _ _ _ _ _ | .raised => True

/-- The stream drops no entry that is owed before the subscriber has got it. -/
def Allowed (fromSequence : Option Int) (subscriber : Subscriber π) : Event π → Prop
  | .publish event drops => ∀ contract, subscriber.contract = some contract →
      ∀ entry ∈ (entries subscriber.log ++
        [(event, subscriber.log.trimmed.length + subscriber.log.retained.length + 1)]).take drops,
          owes contract fromSequence entry = true → entry.2 ≤ seen subscriber.cursor
  | .poll => AllowedPoll fromSequence subscriber subscriber.cursor

instance decidableAllowedPoll (fromSequence : Option Int) (subscriber : Subscriber π) :
    (cursor : Cursor π) → Decidable (AllowedPoll fromSequence subscriber cursor)
  | .idle => inferInstanceAs (Decidable (∀ sequence, fromSequence = some sequence →
      ¬ ∃ event ∈ subscriber.log.trimmed, event.since sequence = true))
  | .tailing lastId [] => inferInstanceAs (Decidable (∀ contract,
      subscriber.contract = some contract →
        ∀ entry ∈ after subscriber.log lastId, owes contract fromSequence entry = true))
  | .tailing _ (_ :: _) | .replaying _ _ _ _ _ | .raised => isTrue trivial

instance decidableAllowed (fromSequence : Option Int) (subscriber : Subscriber π) :
    (event : Event π) → Decidable (Allowed fromSequence subscriber event)
  | .publish event drops => inferInstanceAs (Decidable (∀ contract,
      subscriber.contract = some contract → ∀ entry ∈ (entries subscriber.log ++
        [(event, subscriber.log.trimmed.length + subscriber.log.retained.length + 1)]).take drops,
          owes contract fromSequence entry = true → entry.2 ≤ seen subscriber.cursor))
  | .poll => decidableAllowedPoll fromSequence subscriber subscriber.cursor

variable {fromSequence : Option Int} {subscriber next : Subscriber π} {log grown : JobLog π}
  {contract : Contract π} {event : JobEvent π} {drops lastId : Nat}

theorem entries_pairwise : (entries log).Pairwise fun earlier later => earlier.2 < later.2 := by
  have ids : ((entries log).map Prod.snd).Pairwise (· < ·) := by
    rw [entries, List.zipIdx_map_snd]
    exact List.pairwise_lt_range'
  exact List.pairwise_map.mp ids

theorem mem_entries_bounds {entry : Entry π} (member : entry ∈ entries log) :
    0 < entry.2 ∧ entry.2 ≤ log.trimmed.length + log.retained.length := by
  have lower := List.le_snd_of_mem_zipIdx member
  have upper := List.snd_lt_add_of_mem_zipIdx member
  omega

theorem drop_zipIdx {α : Type} (list : List α) (first count : Nat) :
    (list.zipIdx first).drop count = (list.drop count).zipIdx (first + min count list.length) := by
  induction list generalizing first count with
  | nil => simp
  | cons head rest ih =>
      cases count with
      | zero => simp
      | succ count =>
          rw [List.zipIdx_cons, List.drop_succ_cons, List.drop_succ_cons, ih, List.length_cons]
          congr 1
          omega

theorem entries_publish (published : log.publish event drops = some grown) :
    entries grown = (entries log ++
      [(event, log.trimmed.length + log.retained.length + 1)]).drop drops := by
  obtain ⟨-, trimmed, retained⟩ := JobLog.publish_spec published
  have whole : entries log ++ [(event, log.trimmed.length + log.retained.length + 1)] =
      (log.retained ++ [event]).zipIdx (log.trimmed.length + 1) := by
    rw [List.zipIdx_append, entries]
    congr 3
    omega
  rw [whole, drop_zipIdx, entries, trimmed, retained]
  congr 1
  rw [List.length_append, List.length_take]
  omega

theorem filter_lastOf {list : List (Entry π)} (count : Nat)
    (sorted : list.Pairwise fun earlier later => earlier.2 < later.2)
    (above : ∀ entry ∈ list, lastId < entry.2) :
    lastId ≤ lastOf lastId (list.take count) ∧
    list.filter (fun entry => decide (lastOf lastId (list.take count) < entry.2)) =
      list.drop count := by
  induction list generalizing lastId count with
  | nil => simp [lastOf]
  | cons head rest ih =>
      cases count with
      | zero =>
          refine ⟨Nat.le_refl _, List.filter_eq_self.mpr ?_⟩
          intro entry member
          exact decide_eq_true (above entry member)
      | succ count =>
          obtain ⟨later, sorted⟩ := List.pairwise_cons.mp sorted
          obtain ⟨bound, same⟩ := ih count sorted later
          have first := above head List.mem_cons_self
          rw [List.take_succ_cons, List.drop_succ_cons]
          refine ⟨Nat.le_of_lt (Nat.lt_of_lt_of_le first bound), ?_⟩
          rw [List.filter_cons_of_neg, lastOf, same]
          exact fun behind => absurd (of_decide_eq_true behind) (Nat.not_lt_of_le bound)

theorem le_lastOf {list : List (Entry π)} {entry : Entry π}
    (sorted : list.Pairwise fun earlier later => earlier.2 < later.2) (member : entry ∈ list) :
    entry.2 ≤ lastOf lastId list := by
  induction list generalizing lastId with
  | nil => cases member
  | cons head rest ih =>
      obtain ⟨later, tail⟩ := List.pairwise_cons.mp sorted
      rcases List.mem_cons.mp member with rfl | member
      · have bound := (filter_lastOf rest.length tail later).1
        rwa [List.take_length] at bound
      · exact ih tail member

theorem lastOf_le {list : List (Entry π)} {bound : Nat} (first : lastId ≤ bound)
    (all : ∀ entry ∈ list, entry.2 ≤ bound) : lastOf lastId list ≤ bound := by
  induction list generalizing lastId with
  | nil => exact first
  | cons head rest ih =>
      exact ih (all head List.mem_cons_self) fun entry member => all entry (List.mem_cons_of_mem _ member)

/-- The entries that are owed and that the subscriber has not got yet. -/
def due (contract : Contract π) (fromSequence : Option Int) (subscriber : Subscriber π) :
    List (Entry π) :=
  (after subscriber.log (seen subscriber.cursor)).filter (owes contract fromSequence)

/-- The entries that the subscriber has got and still yields. -/
def queue : Cursor π → List (Entry π)
  | .replaying fromSequence _ rest _ _ => rest.filter (asked fromSequence)
  | .tailing _ fetched => fetched
  | .idle | .raised => []

/-- The loop over the page yields what it is asked for and skips the rest. -/
structure Replays (contract : Contract π) (fromSequence : Option Int)
    (subscriber : Subscriber π) (sequence : Int) (page rest : List (Entry π)) (lastId : Nat)
    (replayedAny : Bool) : Prop where
  given : fromSequence = some sequence
  sorted : page.Pairwise fun earlier later => earlier.2 < later.2
  suffix : rest <:+ page
  reached : lastId ≤ lastOf 0 page
  ahead : ∀ entry ∈ rest, lastId < entry.2
  old : ∀ entry ∈ page, entry.2 ≤ contract.trimmed.length + contract.retained.length
  left : ∀ entry ∈ entries subscriber.log, lastId < entry.2 → entry.2 ≤ lastOf 0 page →
    owes contract fromSequence entry = true → entry ∈ rest
  skipped : replayedAny = false → ∀ entry ∈ page, entry ∈ rest ∨ asked sequence entry = false

/-- What has been yielded, what the subscriber has got, and what it has still to get, is
what the contract owes. -/
structure Owes (contract : Contract π) (fromSequence : Option Int)
    (subscriber : Subscriber π) : Prop where
  agreed : subscriber.contract = some contract
  intact : ¬ contract.Truncated fromSequence
  past : contract.trimmed.length + contract.retained.length ≤
    subscriber.log.trimmed.length + subscriber.log.retained.length
  within : seen subscriber.cursor ≤
    subscriber.log.trimmed.length + subscriber.log.retained.length
  owed : subscriber.yielded ++
    (queue subscriber.cursor ++ due contract fromSequence subscriber).map Prod.fst =
      contract.owed fromSequence

def Serves (fromSequence : Option Int) (subscriber : Subscriber π) : Prop :=
  match subscriber.cursor with
  | .idle => subscriber.contract = none ∧ subscriber.yielded = []
  | .replaying sequence page rest lastId replayedAny => ∃ contract,
      Owes contract fromSequence subscriber ∧
        Replays contract fromSequence subscriber sequence page rest lastId replayedAny
  | .tailing _ _ => ∃ contract, Owes contract fromSequence subscriber
  | .raised => False

theorem start_serves (log : JobLog π) : Serves fromSequence (start log) := ⟨rfl, rfl⟩

theorem due_eq : due contract fromSequence subscriber =
    (entries subscriber.log).filter fun entry =>
      owes contract fromSequence entry && decide (seen subscriber.cursor < entry.2) := by
  rw [due, after, List.filter_filter]

theorem Owes.publish (owes_ : Owes contract fromSequence subscriber)
    (allowed : Allowed fromSequence subscriber (.publish event drops))
    (published : subscriber.log.publish event drops = some grown) :
    Owes (contract.publish event) fromSequence (subscriber.published grown event) where
  agreed := by simp [Subscription.published, owes_.agreed]
  intact := by
    rw [Contract.truncated_publish]
    exact owes_.intact
  past := by
    obtain ⟨-, trimmed, retained⟩ := JobLog.publish_spec published
    have past := owes_.past
    simp only [Subscription.published, Contract.publish, trimmed, retained, List.length_append,
      List.length_take, List.length_drop, List.length_singleton]
    omega
  within := by
    obtain ⟨-, trimmed, retained⟩ := JobLog.publish_spec published
    have within := owes_.within
    simp only [Subscription.published, trimmed, retained, List.length_append, List.length_take,
      List.length_drop, List.length_singleton]
    omega
  owed := by
    let id := subscriber.log.trimmed.length + subscriber.log.retained.length + 1
    let isDue : Entry π → Bool := fun entry =>
      owes contract fromSequence entry && decide (seen subscriber.cursor < entry.2)
    have dropped : ((entries subscriber.log ++ [(event, id)]).take drops).filter isDue = [] := by
      apply List.filter_eq_nil_iff.mpr
      intro entry member due
      simp only [isDue, Bool.and_eq_true, decide_eq_true_eq] at due
      have got := allowed contract owes_.agreed entry member due.1
      omega
    have fresh : isDue (event, id) = true := by
      have past := owes_.past
      have within := owes_.within
      simp only [isDue, owes, id, Bool.and_eq_true, Bool.or_eq_true, decide_eq_true_eq]
      omega
    have same : (entries grown).filter isDue = due contract fromSequence subscriber ++ [(event, id)] := by
      have whole := congrArg (List.filter isDue)
        (List.take_append_drop drops (entries subscriber.log ++ [(event, id)]))
      rw [List.filter_append, dropped, List.nil_append] at whole
      rw [entries_publish published, whole, due_eq, List.filter_append]
      simp [fresh, isDue]
    have later : due (contract.publish event) fromSequence (subscriber.published grown event) =
        due contract fromSequence subscriber ++ [(event, id)] := by
      rw [← same, due_eq]
      rfl
    rw [later, Contract.owed_publish, ← owes_.owed]
    simp [Subscription.published]

theorem Replays.publish {sequence : Int} {page rest : List (Entry π)} {replayedAny : Bool}
    (replays : Replays contract fromSequence subscriber sequence page rest lastId replayedAny)
    (read : lastOf 0 page ≤ subscriber.log.trimmed.length + subscriber.log.retained.length)
    (published : subscriber.log.publish event drops = some grown) :
    Replays (contract.publish event) fromSequence (subscriber.published grown event) sequence page
      rest lastId replayedAny where
  given := replays.given
  sorted := replays.sorted
  suffix := replays.suffix
  reached := replays.reached
  ahead := replays.ahead
  old := replays.old
  left := by
    intro entry member behind got owed
    simp only [Subscription.published, entries_publish published] at member
    rcases List.mem_append.mp (List.mem_of_mem_drop member) with old | fresh
    · exact replays.left entry old behind got owed
    · rw [List.mem_singleton.mp fresh] at got
      dsimp only at got
      omega
  skipped := replays.skipped

theorem publish_serves {maxLen : Nat} (serves : Serves fromSequence subscriber)
    (allowed : Allowed fromSequence subscriber (.publish event drops))
    (published : step maxLen fromSequence subscriber (.publish event drops) = some next) :
    Serves fromSequence next := by
  simp only [step] at published
  split at published
  · obtain ⟨log, grown, rfl⟩ := Option.map_eq_some_iff.mp published
    cases cursor : subscriber.cursor with
    | idle =>
        simp only [Serves, cursor] at serves
        simp [Serves, Subscription.published, cursor, serves]
    | replaying sequence page rest lastId replayedAny =>
        simp only [Serves, cursor] at serves
        obtain ⟨contract, owes_, replays⟩ := serves
        have within := owes_.within
        simp only [cursor, seen] at within
        have kept : (subscriber.published log event).cursor =
          .replaying sequence page rest lastId replayedAny := cursor
        simp only [Serves, kept]
        exact ⟨_, owes_.publish allowed grown, replays.publish within grown⟩
    | tailing lastId fetched =>
        simp only [Serves, cursor] at serves
        obtain ⟨contract, owes_⟩ := serves
        have kept : (subscriber.published log event).cursor = .tailing lastId fetched := cursor
        simp only [Serves, kept]
        exact ⟨_, owes_.publish allowed grown⟩
    | raised => simp [Serves, cursor] at serves
  · cases published

theorem owes_start {entry : Entry π} (member : entry ∈ entries log) :
    owes (.start log) fromSequence entry =
      fromSequence.any fun fromSequence => asked fromSequence entry := by
  have bounds := mem_entries_bounds member
  have early : ¬ log.trimmed.length + log.retained.length < entry.2 := by omega
  simp [owes, Contract.start, early]

theorem subscribe_serves (quiet : subscriber.yielded = []) :
    Owes (.start subscriber.log) none { subscriber with
      contract := some (.start subscriber.log), cursor := .tailing 0 [] } where
  agreed := rfl
  intact := id
  past := Nat.le_refl _
  within := Nat.zero_le _
  owed := by
    have none_due : due (.start subscriber.log) none { subscriber with
        contract := some (.start subscriber.log), cursor := .tailing 0 [] } = [] := by
      rw [due_eq]
      apply List.filter_eq_nil_iff.mpr
      intro entry member
      rw [owes_start member]
      simp
    rw [none_due]
    simp [queue, quiet, Contract.owed, Contract.replay, Contract.start]

theorem map_fst_asked {sequence : Int} {list : List (Entry π)} :
    (list.filter (asked sequence)).map Prod.fst =
      (list.map Prod.fst).filter (JobEvent.since sequence) := by
  rw [List.filter_map]
  rfl

theorem map_fst_entries : (entries log).map Prod.fst = log.retained :=
  List.zipIdx_map_fst _ _

theorem read_serves {sequence : Int} {started : Subscriber π} (quiet : subscriber.yielded = [])
    (start : started = { subscriber with
      contract := some (.start subscriber.log)
      cursor := .replaying sequence (xrange subscriber.log) (xrange subscriber.log) 0 false })
    (intact : ¬ ∃ event ∈ subscriber.log.trimmed, event.since sequence = true) :
    Owes (.start subscriber.log) (some sequence) started ∧
      Replays (.start subscriber.log) (some sequence) started sequence (xrange subscriber.log)
        (xrange subscriber.log) 0 false := by
  subst start
  have above : ∀ entry ∈ entries subscriber.log, 0 < entry.2 :=
    fun entry member => (mem_entries_bounds member).1
  have page : ∀ entry ∈ xrange subscriber.log, entry ∈ entries subscriber.log :=
    fun entry member => List.mem_of_mem_take member
  have old : ∀ entry ∈ xrange subscriber.log, entry.2 ≤
      subscriber.log.trimmed.length + subscriber.log.retained.length :=
    fun entry member => (mem_entries_bounds (page entry member)).2
  have behind : after subscriber.log (lastOf 0 (xrange subscriber.log)) =
      (entries subscriber.log).drop backfillPage := (filter_lastOf backfillPage entries_pairwise above).2
  have dues : ((entries subscriber.log).drop backfillPage).filter
      (owes (.start subscriber.log) (some sequence)) =
        ((entries subscriber.log).drop backfillPage).filter (asked sequence) :=
    List.filter_congr fun entry member => owes_start (List.mem_of_mem_drop member)
  have sorted : (xrange subscriber.log).Pairwise fun earlier later => earlier.2 < later.2 :=
    entries_pairwise.sublist (List.take_sublist _ _)
  refine ⟨⟨rfl, intact, Nat.le_refl _, lastOf_le (Nat.zero_le _) old, ?_⟩,
    ⟨rfl, sorted, List.suffix_rfl, Nat.zero_le _, fun entry member => above entry (page entry member),
      old, ?_, ?_⟩⟩
  · simp only [due, queue, seen, behind, dues, quiet, List.nil_append]
    rw [xrange, ← List.filter_append, List.take_append_drop, map_fst_asked, map_fst_entries]
    simp [Contract.owed, Contract.replay, Contract.start]
  · intro entry member _ read _
    rw [← List.take_append_drop backfillPage (entries subscriber.log)] at member
    rcases List.mem_append.mp member with first | later
    · exact first
    · rw [← behind] at later
      have beyond := of_decide_eq_true (List.mem_filter.mp later).2
      omega
  · intro _ entry member
    exact .inl member

theorem skip_serves {sequence : Int} {page rest : List (Entry π)} {entry : Entry π}
    {replayedAny : Bool} (cursor : subscriber.cursor =
      .replaying sequence page (entry :: rest) lastId replayedAny)
    (skipped : ¬ asked sequence entry = true)
    (owed : Owes contract fromSequence subscriber)
    (replays : Replays contract fromSequence subscriber sequence page (entry :: rest) lastId
      replayedAny) :
    Owes contract fromSequence
        (subscriber.moves (.replaying sequence page rest lastId replayedAny)) ∧
      Replays contract fromSequence
        (subscriber.moves (.replaying sequence page rest lastId replayedAny)) sequence page rest
          lastId replayedAny := by
  have unowed : ¬ owes contract fromSequence entry = true := by
    have old := replays.old entry (replays.suffix.mem List.mem_cons_self)
    have early : ¬ contract.trimmed.length + contract.retained.length < entry.2 := by omega
    simp [owes, early, replays.given, skipped]
  refine ⟨⟨owed.agreed, owed.intact, owed.past, ?_, ?_⟩,
    ⟨replays.given, replays.sorted, (List.suffix_cons _ _).trans replays.suffix, replays.reached,
      fun other member => replays.ahead other (List.mem_cons_of_mem _ member), replays.old, ?_, ?_⟩⟩
  · have within := owed.within
    rwa [cursor] at within
  · have same := owed.owed
    simp only [due, queue, seen, cursor, List.filter_cons_of_neg skipped] at same
    exact same
  · intro other member behind read due
    rcases List.mem_cons.mp (replays.left other member behind read due) with rfl | later
    · exact absurd due unowed
    · exact later
  · intro none other member
    rcases replays.skipped none other member with left | past
    · rcases List.mem_cons.mp left with rfl | later
      · exact .inr (Bool.eq_false_iff.mpr skipped)
      · exact .inl later
    · exact .inr past

theorem replay_serves {sequence : Int} {page rest : List (Entry π)} {entry : Entry π}
    {replayedAny : Bool} (cursor : subscriber.cursor =
      .replaying sequence page (entry :: rest) lastId replayedAny)
    (wanted : asked sequence entry = true)
    (owed : Owes contract fromSequence subscriber)
    (replays : Replays contract fromSequence subscriber sequence page (entry :: rest) lastId
      replayedAny) :
    Owes contract fromSequence
        (subscriber.yields entry.1 (.replaying sequence page rest entry.2 true)) ∧
      Replays contract fromSequence
        (subscriber.yields entry.1 (.replaying sequence page rest entry.2 true)) sequence page rest
          entry.2 true := by
  have rest_sorted := replays.sorted.sublist replays.suffix.sublist
  have present := replays.suffix.mem (List.mem_cons_self (a := entry) (l := rest))
  have later := replays.ahead entry List.mem_cons_self
  refine ⟨⟨owed.agreed, owed.intact, owed.past, ?_, ?_⟩,
    ⟨replays.given, replays.sorted, (List.suffix_cons _ _).trans replays.suffix,
      le_lastOf replays.sorted present, (List.pairwise_cons.mp rest_sorted).1, replays.old, ?_, ?_⟩⟩
  · have within := owed.within
    rwa [cursor] at within
  · have same := owed.owed
    simp only [due, queue, seen, cursor, List.filter_cons_of_pos wanted] at same
    rw [← same]
    simp [Subscription.yields, due, queue, seen]
  · intro other member behind read due
    rcases List.mem_cons.mp (replays.left other member (Nat.lt_trans later behind) read due) with
      rfl | later
    · exact absurd behind (Nat.lt_irrefl _)
    · exact later
  · intro none
    cases none

theorem replayed_serves {sequence : Int} {page : List (Entry π)} {replayedAny : Bool}
    (cursor : subscriber.cursor = .replaying sequence page [] lastId replayedAny)
    (owed : Owes contract fromSequence subscriber)
    (replays : Replays contract fromSequence subscriber sequence page [] lastId replayedAny) :
    refuses sequence page replayedAny = false ∧
      Owes contract fromSequence (subscriber.moves (.tailing lastId [])) := by
  constructor
  · cases replayed : replayedAny with
    | true => rfl
    | false =>
        cases page with
        | nil => rfl
        | cons oldest rest =>
            rcases replays.skipped replayed oldest List.mem_cons_self with left | skipped
            · cases left
            · simp only [asked, JobEvent.since, decide_eq_false_iff_not] at skipped
              simp only [refuses, Bool.not_false, Bool.true_and, List.head?_cons, Option.any_some,
                decide_eq_false_iff_not]
              omega
  · have within := owed.within
    have same := owed.owed
    simp only [cursor, seen, queue, List.filter_nil, List.nil_append] at within same
    refine ⟨owed.agreed, owed.intact, owed.past, Nat.le_trans replays.reached within, ?_⟩
    have unread : due contract fromSequence (subscriber.moves (.tailing lastId [])) =
        due contract fromSequence subscriber := by
      rw [due_eq, due_eq]
      apply List.filter_congr
      intro entry member
      cases owes_ : owes contract fromSequence entry with
      | false => rfl
      | true =>
          have reached := replays.reached
          have left := replays.left entry member
          simp only [owes_, List.not_mem_nil, imp_false, not_true_eq_false] at left
          simp only [Subscription.moves, cursor, seen, lastOf, Bool.true_and]
          exact decide_eq_decide.mpr (by omega)
    rw [unread]
    exact same

theorem fetched_serves {rest : List (Entry π)} {entry : Entry π}
    (cursor : subscriber.cursor = .tailing lastId (entry :: rest))
    (owed : Owes contract fromSequence subscriber) :
    Owes contract fromSequence (subscriber.yields entry.1 (.tailing entry.2 rest)) := by
  have within := owed.within
  have same := owed.owed
  simp only [cursor, seen, queue, due] at within same
  refine ⟨owed.agreed, owed.intact, owed.past, within, ?_⟩
  rw [← same]
  simp [Subscription.yields, due, queue, seen, lastOf]

theorem after_xread : after log (lastOf lastId (xread log lastId)) =
    (after log lastId).drop backfillPage := by
  have sorted : (after log lastId).Pairwise fun earlier later => earlier.2 < later.2 :=
    entries_pairwise.sublist List.filter_sublist
  have above : ∀ entry ∈ after log lastId, lastId < entry.2 :=
    fun entry member => of_decide_eq_true (List.mem_filter.mp member).2
  obtain ⟨further, behind⟩ := filter_lastOf backfillPage sorted above
  rw [← behind, after, after, List.filter_filter]
  apply List.filter_congr
  intro entry _
  rw [← Bool.decide_and, decide_eq_decide]
  have forward : lastId ≤ lastOf lastId (xread log lastId) := further
  change lastOf lastId (xread log lastId) < entry.2 ↔
    lastOf lastId (xread log lastId) < entry.2 ∧ lastId < entry.2
  omega

theorem xread_serves (cursor : subscriber.cursor = .tailing lastId [])
    (allowed : ∀ entry ∈ after subscriber.log lastId, owes contract fromSequence entry = true)
    (owed : Owes contract fromSequence subscriber) :
    Owes contract fromSequence
      (subscriber.moves (.tailing lastId (xread subscriber.log lastId))) := by
  have all_due : (after subscriber.log lastId).filter (owes contract fromSequence) =
      after subscriber.log lastId := List.filter_eq_self.mpr allowed
  have rest_due : ((after subscriber.log lastId).drop backfillPage).filter
      (owes contract fromSequence) = (after subscriber.log lastId).drop backfillPage :=
    List.filter_eq_self.mpr fun entry member => allowed entry (List.mem_of_mem_drop member)
  have within := owed.within
  have same := owed.owed
  simp only [cursor, seen, queue, due, lastOf, all_due, List.nil_append] at within same
  refine ⟨owed.agreed, owed.intact, owed.past, lastOf_le within ?_, ?_⟩
  · intro entry member
    have present := List.mem_of_mem_filter (List.mem_of_mem_take member)
    exact (mem_entries_bounds present).2
  · simp only [Subscription.moves, due, queue, seen, after_xread, rest_due]
    rw [xread, List.take_append_drop]
    exact same

theorem poll_serves (serves : Serves fromSequence subscriber)
    (allowed : Allowed fromSequence subscriber .poll) :
    Serves fromSequence (poll fromSequence subscriber) := by
  unfold poll
  split
  · rename_i idle
    simp only [Serves, idle] at serves
    simp only [Allowed, AllowedPoll, idle] at allowed
    cases fromSequence with
    | none => exact ⟨_, subscribe_serves serves.2⟩
    | some sequence => exact ⟨_, read_serves serves.2 rfl (allowed sequence rfl)⟩
  · rename_i sequence page entry rest lastId replayedAny cursor
    simp only [Serves, cursor] at serves
    obtain ⟨contract, owed, replays⟩ := serves
    split
    · rename_i wanted
      exact ⟨contract, replay_serves cursor wanted owed replays⟩
    · rename_i skipped
      exact ⟨contract, skip_serves cursor skipped owed replays⟩
  · rename_i sequence page lastId replayedAny cursor
    simp only [Serves, cursor] at serves
    obtain ⟨contract, owed, replays⟩ := serves
    obtain ⟨accepted, tails⟩ := replayed_serves cursor owed replays
    rw [accepted]
    exact ⟨contract, tails⟩
  · rename_i lastId entry rest cursor
    simp only [Serves, cursor] at serves
    obtain ⟨contract, owed⟩ := serves
    exact ⟨contract, fetched_serves cursor owed⟩
  · rename_i lastId cursor
    simp only [Serves, cursor] at serves
    simp only [Allowed, AllowedPoll, cursor] at allowed
    obtain ⟨contract, owed⟩ := serves
    exact ⟨contract, xread_serves cursor (allowed contract owed.agreed) owed⟩
  · exact serves

theorem step_serves {maxLen : Nat} {event : Event π} (serves : Serves fromSequence subscriber)
    (allowed : Allowed fromSequence subscriber event)
    (stepped : step maxLen fromSequence subscriber event = some next) : Serves fromSequence next := by
  cases event with
  | publish event drops => exact publish_serves serves allowed stepped
  | poll =>
      cases stepped
      exact poll_serves serves allowed

theorem Owes.conforms (owed : Owes contract fromSequence subscriber)
    (running : raised subscriber = false)
    (idle : waiting subscriber = true → queue subscriber.cursor = [] ∧
      after subscriber.log (seen subscriber.cursor) = []) :
    subscriber.Conforms fromSequence (raised subscriber) (waiting subscriber) where
  raises other agreed := by
    cases owed.agreed.symm.trans agreed
    simp [running, owed.intact]
  yields other agreed _ := by
    cases owed.agreed.symm.trans agreed
    rw [← owed.owed]
    exact List.prefix_append _ _
  complete other agreed _ waits := by
    cases owed.agreed.symm.trans agreed
    obtain ⟨empty, none⟩ := idle waits
    rw [← owed.owed, due, empty, none]
    simp
  idle unread := by
    rw [owed.agreed] at unread
    cases unread

theorem Serves.conforms (serves : Serves fromSequence subscriber) :
    subscriber.Conforms fromSequence (raised subscriber) (waiting subscriber) := by
  cases cursor : subscriber.cursor with
  | idle =>
      simp only [Serves, cursor] at serves
      constructor <;> simp [serves]
  | replaying sequence page rest lastId replayedAny =>
      simp only [Serves, cursor] at serves
      obtain ⟨contract, owed, -⟩ := serves
      apply owed.conforms
      · simp [raised, cursor]
      · simp [waiting, cursor]
  | tailing lastId fetched =>
      simp only [Serves, cursor] at serves
      obtain ⟨contract, owed⟩ := serves
      apply owed.conforms
      · simp [raised, cursor]
      · cases fetched with
        | nil => simp [waiting, cursor, queue, seen, lastOf]
        | cons entry rest => simp [waiting, cursor]
  | raised => simp [Serves, cursor] at serves

/-- Runs whose events are all allowed conform. -/
theorem stream_conforms {maxLen : Nat} {log : JobLog π} {events : List (Event π)}
    {last : Subscriber π}
    (meets : Meets (step maxLen fromSequence) (Allowed fromSequence) (start log) events)
    (ran : run (step maxLen fromSequence) (start log) events = some last) :
    last.Conforms fromSequence (raised last) (waiting last) := by
  have serves : Serves fromSequence last :=
    run_invariant (Serves fromSequence) (fun _ _ _ => step_serves) (start_serves log) meets ran
  exact serves.conforms

/-- How far a subscriber is from the end of the stream.  An entry counts twice until it
has been fetched. -/
def rank (subscriber : Subscriber π) : Nat :=
  match subscriber.cursor with
  | .idle => 3 * (entries subscriber.log).length + 2
  | .replaying _ _ rest _ _ => rest.length + 2 * (entries subscriber.log).length + 1
  | .tailing lastId fetched =>
      fetched.length + 2 * (after subscriber.log (lastOf lastId fetched)).length
  | .raised => 0

/-- The subscriber has been refused, or it waits for an event. -/
def Settled (subscriber : Subscriber π) : Prop :=
  raised subscriber = true ∨ waiting subscriber = true

theorem length_after_le (log : JobLog π) (lastId : Nat) :
    (after log lastId).length ≤ (entries log).length :=
  List.length_filter_le _ _

theorem length_after_xread (log : JobLog π) (lastId : Nat) :
    (after log (lastOf lastId (xread log lastId))).length + (xread log lastId).length =
      (after log lastId).length := by
  rw [after_xread, xread, List.length_drop, List.length_take]
  omega

theorem rank_poll (unsettled : ¬ Settled subscriber) :
    rank (poll fromSequence subscriber) < rank subscriber := by
  unfold poll
  split
  · rename_i idle
    have far : rank subscriber = 3 * (entries subscriber.log).length + 2 := by simp [rank, idle]
    rw [far]
    cases fromSequence with
    | none =>
        have fewer := length_after_le subscriber.log 0
        simp only [rank, Subscription.moves, lastOf, List.length_nil]
        omega
    | some sequence =>
        have fewer : (xrange subscriber.log).length ≤ (entries subscriber.log).length :=
          List.length_take_le' _ _
        simp only [rank, Subscription.moves]
        omega
  · rename_i sequence page entry rest lastId replayedAny cursor
    have far : rank subscriber =
        (entry :: rest).length + 2 * (entries subscriber.log).length + 1 := by simp [rank, cursor]
    rw [far]
    split
    · simp [rank, Subscription.yields]
    · simp [rank, Subscription.moves]
  · rename_i sequence page lastId replayedAny cursor
    have far : rank subscriber = 2 * (entries subscriber.log).length + 1 := by simp [rank, cursor]
    have fewer := length_after_le subscriber.log lastId
    rw [far]
    split
    · simp [rank, Subscription.moves]
    · simp only [rank, Subscription.moves, lastOf, List.length_nil]
      omega
  · rename_i lastId entry rest cursor
    simp [rank, cursor, Subscription.yields, lastOf]
  · rename_i lastId cursor
    have more : after subscriber.log lastId ≠ [] := by
      intro none
      exact unsettled (.inr (by simp [waiting, cursor, none]))
    have found : 0 < (xread subscriber.log lastId).length := by
      rw [xread, List.length_take]
      exact Nat.lt_min.mpr ⟨by decide, List.length_pos_iff.mpr more⟩
    have split := length_after_xread subscriber.log lastId
    simp only [rank, cursor, Subscription.moves, lastOf, List.length_nil]
    omega
  · rename_i cursor
    exact absurd (.inl (by simp [raised, cursor])) unsettled

/-- A subscriber that asks often enough is refused, or has to wait. -/
theorem polls_settle (fromSequence : Option Int) (subscriber : Subscriber π) :
    ∃ count, Settled ((poll fromSequence)^[count] subscriber) :=
  exists_iterate rank (fun _ => rank_poll) subscriber

end RedisStreams

end Univiz.Jobs
