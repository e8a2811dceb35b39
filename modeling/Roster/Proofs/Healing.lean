import Mathlib.Data.List.Basic
import Mathlib.Data.List.Induction
import Roster.Healing
import Roster.Proofs.Attempt

/-!
# Rounds of healing

A run of the healing loop is what was asked of it at moments that never go back, where
an exchange begins only right after a tick that asked for one.  When a tick asks for an
exchange can be told from the history alone: the loop was not stopped, a round is due,
and no exchange that is neither answered nor past its deadline is out.  Rounds are an
interval apart, and a round that is skipped puts the next one off by an interval.
-/

namespace Roster

namespace Healing

/-! ## Operations -/

inductive Operation where
  | tick (now : Nat)
  | begin (peer : SocketAddress) (now : Nat)
  | complete (peer : SocketAddress)
  | stop
  deriving DecidableEq, Repr

/-- When the operation takes place, as far as it says so. -/
def Operation.moment? : Operation → Option Nat
  | .tick now | .begin _ now => some now
  | .complete _ | .stop => none

def operate (healing : Healing) : Operation → Except Overflow (Option Bool × Healing)
  | .tick now => (healing.tick now).map fun (due, after) => (some due, after)
  | .begin peer now => (healing.begin peer now).map fun after => (none, after)
  | .complete peer => .ok (some (healing.complete peer).1, (healing.complete peer).2)
  | .stop => .ok (none, healing.stop)

variable {start healing after : Healing} {operation : Operation} {answer : Option Bool}
  {now : Nat} {peer : SocketAddress} {due : Bool}

theorem tick_of_stopped (stopped : healing.stopped = true) :
    healing.tick now = .ok (false, healing) := by
  rw [tick, if_pos stopped]
  rfl

/-- The next round as a tick finds it. -/
def roundAt (healing : Healing) (now : Nat) : Nat :=
  healing.next.getD (now + healing.interval)

def ticked (healing : Healing) (now : Nat) : Healing :=
  { healing.expire now with
    next := some (if now < healing.roundAt now then healing.roundAt now else now + healing.interval) }

theorem tick_of_running (running : healing.stopped = false)
    (fits : now + healing.interval < Word.bound) :
    healing.tick now =
      .ok (decide (healing.roundAt now ≤ now) && (healing.expire now).exchange.isNone,
        healing.ticked now) := by
  rw [tick, if_neg (by simp [running])]
  change (do
    let following ← Word.add now healing.interval
    _) = _
  rw [Word.add_eq_ok fits, Attempt.ok_bind]
  unfold ticked
  by_cases early : now < healing.roundAt now
  · rw [if_pos early, decide_eq_false (Nat.not_le_of_lt early)]
    exact if_pos early
  · rw [if_neg early, decide_eq_true (Nat.le_of_not_lt early)]
    exact if_neg early

theorem tick_of_overflow (running : healing.stopped = false)
    (overflows : Word.bound ≤ now + healing.interval) : healing.tick now = .error .add := by
  rw [tick, if_neg (by simp [running])]
  change (do
    let following ← Word.add now healing.interval
    _) = _
  rw [Word.add_eq_error overflows]
  rfl

private theorem begin_eq_ok (begun : healing.begin peer now = .ok after) :
    after = { healing with exchange := some { peer, deadline := now + healing.timeout } } := by
  obtain ⟨deadline, added, returned⟩ := Attempt.bind_eq_ok begun
  cases returned
  rw [Word.eq_add_of_ok added]

/-! ## Histories -/

structure Occurrence where
  operation : Operation
  answer : Option Bool
  deriving DecidableEq, Repr

variable {history earlier later : List Occurrence} {occurrence : Occurrence}
  {interval timeout begun : Nat}

def Stopped (history : List Occurrence) : Prop :=
  ∃ occurrence ∈ history, occurrence.operation = .stop

/-- An exchange with the peer was begun at a moment, and since then neither answered nor
given up by a stop. -/
def Unanswered (history : List Occurrence) (peer : SocketAddress) (begun : Nat) : Prop :=
  ∃ earlier later, history = earlier ++ ⟨.begin peer begun, none⟩ :: later ∧
    ∀ occurrence ∈ later,
      occurrence.operation ≠ .complete peer ∧ occurrence.operation ≠ .stop

/-- An exchange is out, and its deadline has not come. -/
def Outstanding (timeout : Nat) (history : List Occurrence) (now : Nat) : Prop :=
  ∃ peer begun, Unanswered history peer begun ∧ now < begun + timeout

def Passed (history : List Occurrence) (moment : Nat) : Prop :=
  ∃ occurrence ∈ history, ∃ now, occurrence.operation = .tick now ∧ moment ≤ now

def ticks (history : List Occurrence) : List Nat :=
  history.filterMap fun occurrence =>
    match occurrence.operation with
    | .tick now => some now
    | _ => none

/-- The first tick plans a round an interval later, and so does every tick that comes when
a round is due. -/
def schedule (interval : Nat) (planned : Option Nat) (occurrence : Occurrence) : Option Nat :=
  match occurrence.operation with
  | .tick now =>
      let round := planned.getD (now + interval)
      some (if now < round then round else now + interval)
  | _ => planned

def nextRound (interval : Nat) (history : List Occurrence) : Option Nat :=
  history.foldl (schedule interval) none

theorem nextRound_append (interval : Nat) (history : List Occurrence)
    (occurrence : Occurrence) :
    nextRound interval (history ++ [occurrence]) =
      schedule interval (nextRound interval history) occurrence := by
  rw [nextRound, List.foldl_append]
  rfl

theorem stopped_append :
    Stopped (history ++ [occurrence]) ↔ Stopped history ∨ occurrence.operation = .stop := by
  simp [Stopped, or_and_right, exists_or]

theorem Passed.append {moment : Nat} (passed : Passed history moment) :
    Passed (history ++ [occurrence]) moment := by
  obtain ⟨tick, among, late⟩ := passed
  exact ⟨tick, List.mem_append_left _ among, late⟩

theorem unanswered_append :
    Unanswered (history ++ [occurrence]) peer begun ↔
      occurrence = ⟨.begin peer begun, none⟩ ∨
        Unanswered history peer begun ∧ occurrence.operation ≠ .complete peer ∧
          occurrence.operation ≠ .stop := by
  constructor
  · rintro ⟨earlier, later, split, unended⟩
    rcases List.eq_nil_or_concat' later with rfl | ⟨front, last, rfl⟩
    · obtain ⟨_, same⟩ := List.append_inj' split rfl
      cases same
      exact Or.inl rfl
    · rw [← List.cons_append, ← List.append_assoc] at split
      obtain ⟨sameHistory, same⟩ := List.append_inj' split rfl
      cases same
      refine Or.inr ⟨⟨earlier, front, sameHistory, ?_⟩, ?_⟩
      · exact fun other among => unended other (List.mem_append_left _ among)
      · exact unended _ (List.mem_append_right _ (List.mem_singleton_self _))
  · rintro (rfl | ⟨⟨earlier, later, rfl, unended⟩, last⟩)
    · exact ⟨history, [], rfl, by simp⟩
    · refine ⟨earlier, later ++ [occurrence], by simp, fun other among => ?_⟩
      rcases List.mem_append.mp among with before | isLast
      · exact unended other before
      · rw [List.mem_singleton.mp isLast]
        exact last

/-! ## Runs -/

/-- What may be asked of the loop: the clock does not go back, and an exchange begins
only right after a tick that asked for it, at the same moment. -/
structure Allows (history : List Occurrence) (operation : Operation) : Prop where
  forward : ∀ now, operation.moment? = some now → ∀ occurrence ∈ history,
    ∀ earlier, occurrence.operation.moment? = some earlier → earlier ≤ now
  asked : ∀ peer now, operation = .begin peer now →
    history.getLast? = some ⟨.tick now, some true⟩

inductive Runs (start : Healing) : List Occurrence → Healing → Prop where
  | start : Runs start [] start
  | operate {history : List Occurrence} {before after : Healing} {operation : Operation}
      {answer : Option Bool} (run : Runs start history before)
      (allowed : Allows history operation)
      (operated : before.operate operation = .ok (answer, after)) :
      Runs start (history ++ [⟨operation, answer⟩]) after

/-! ## The exchange that is out -/

/-- The loop is in step with its history.  An exchange that is unanswered is the one that
the loop waits for, unless a tick came at or after its deadline. -/
structure InStep (interval timeout : Nat) (history : List Occurrence) (healing : Healing) :
    Prop where
  interval_eq : healing.interval = interval
  timeout_eq : healing.timeout = timeout
  stopped_iff : healing.stopped = true ↔ Stopped history
  next_eq : healing.stopped = false → healing.next = nextRound interval history
  pending : ∀ exchange, healing.exchange = some exchange →
    ∃ begun, Unanswered history exchange.peer begun ∧ exchange.deadline = begun + timeout
  unanswered : ∀ peer begun, Unanswered history peer begun →
    healing.exchange = some ⟨peer, begun + timeout⟩ ∨ Passed history (begun + timeout)
  asked : ∀ now, history.getLast? = some ⟨.tick now, some true⟩ → healing.exchange = none

private theorem exchange_expire_eq_some_iff {exchange : HealingExchange} :
    (healing.expire now).exchange = some exchange ↔
      healing.exchange = some exchange ∧ now < exchange.deadline := by
  simp [expire, Option.filter_eq_some_iff]

/-- At a moment that is not before the history, the loop waits for an exchange exactly if
there is one whose deadline has not come. -/
private theorem InStep.outstanding_iff (inStep : InStep interval timeout history healing)
    (forward : ∀ occurrence ∈ history, ∀ earlier,
      occurrence.operation.moment? = some earlier → earlier ≤ now) :
    (healing.expire now).exchange.isSome = true ↔ Outstanding timeout history now := by
  constructor
  · intro waits
    obtain ⟨exchange, found⟩ := Option.isSome_iff_exists.mp waits
    obtain ⟨out, early⟩ := exchange_expire_eq_some_iff.mp found
    obtain ⟨begun, unanswered, deadline⟩ := inStep.pending exchange out
    exact ⟨exchange.peer, begun, unanswered, deadline ▸ early⟩
  · rintro ⟨peer, begun, unanswered, early⟩
    rcases inStep.unanswered peer begun unanswered with out | ⟨tick, among, moment, ticks, late⟩
    · exact Option.isSome_iff_exists.mpr ⟨_, exchange_expire_eq_some_iff.mpr ⟨out, early⟩⟩
    · -- The tick that came after the deadline would be later than now.
      have past := forward tick among moment (by rw [ticks]; rfl)
      omega

theorem last_append {other : Occurrence}
    (last : (history ++ [occurrence]).getLast? = some other) : occurrence = other := by
  simpa using last

private theorem InStep.tick_stopped (inStep : InStep interval timeout history healing)
    (stopped : healing.stopped = true) :
    InStep interval timeout (history ++ [⟨.tick now, some false⟩]) healing where
  interval_eq := inStep.interval_eq
  timeout_eq := inStep.timeout_eq
  stopped_iff := by
    rw [stopped_append, inStep.stopped_iff]
    simp
  next_eq running := by
    rw [stopped] at running
    cases running
  pending exchange out := by
    obtain ⟨begun, unanswered, deadline⟩ := inStep.pending exchange out
    exact ⟨begun, unanswered_append.mpr (Or.inr ⟨unanswered, by simp, by simp⟩), deadline⟩
  unanswered peer begun still := by
    rcases unanswered_append.mp still with same | ⟨before, _⟩
    · cases same
    · exact (inStep.unanswered peer begun before).imp_right Passed.append
  asked moment last := by
    cases last_append last

theorem InStep.ticked (inStep : InStep interval timeout history healing)
    (running : healing.stopped = false) (due : Bool)
    (asks : due = true → (healing.expire now).exchange = none) :
    InStep interval timeout (history ++ [⟨.tick now, some due⟩]) (healing.ticked now) where
  interval_eq := inStep.interval_eq
  timeout_eq := inStep.timeout_eq
  stopped_iff := by
    rw [stopped_append, ← inStep.stopped_iff]
    simp [Healing.ticked, expire]
  next_eq _ := by
    rw [nextRound_append, ← inStep.next_eq running, ← inStep.interval_eq]
    rfl
  pending exchange out := by
    obtain ⟨before, early⟩ := exchange_expire_eq_some_iff.mp out
    obtain ⟨begun, unanswered, deadline⟩ := inStep.pending exchange before
    exact ⟨begun, unanswered_append.mpr (Or.inr ⟨unanswered, by simp, by simp⟩), deadline⟩
  unanswered peer begun still := by
    rcases unanswered_append.mp still with same | ⟨before, _⟩
    · cases same
    rcases inStep.unanswered peer begun before with out | passed
    · by_cases early : now < begun + timeout
      · exact Or.inl (exchange_expire_eq_some_iff.mpr ⟨out, early⟩)
      · refine Or.inr ⟨⟨.tick now, some due⟩, ?_, now, rfl, Nat.le_of_not_lt early⟩
        exact List.mem_append_right _ (List.mem_singleton_self _)
    · exact Or.inr passed.append
  asked moment last := by
    cases last_append last
    exact asks rfl

theorem InStep.begin (inStep : InStep interval timeout history healing)
    (asked : history.getLast? = some ⟨.tick now, some true⟩) :
    InStep interval timeout (history ++ [⟨.begin peer now, none⟩])
      { healing with exchange := some { peer, deadline := now + healing.timeout } } where
  interval_eq := inStep.interval_eq
  timeout_eq := inStep.timeout_eq
  stopped_iff := by
    rw [stopped_append, inStep.stopped_iff]
    simp
  next_eq running := by
    rw [nextRound_append]
    exact inStep.next_eq running
  pending exchange out := by
    cases out
    exact ⟨now, unanswered_append.mpr (Or.inl rfl), by rw [inStep.timeout_eq]⟩
  unanswered other begun still := by
    rcases unanswered_append.mp still with same | ⟨before, _⟩
    · cases same
      exact Or.inl (by rw [inStep.timeout_eq])
    · -- The tick that asked for the exchange found no other.
      rcases inStep.unanswered other begun before with out | passed
      · rw [inStep.asked now asked] at out
        cases out
      · exact Or.inr passed.append
  asked moment last := by
    cases last_append last

private theorem complete_of_answered {exchange : HealingExchange}
    (out : healing.exchange = some exchange) :
    healing.complete exchange.peer = (true, { healing with exchange := none }) := by
  simp [complete, out]

private theorem complete_of_other (other : ∀ exchange, healing.exchange = some exchange →
    exchange.peer ≠ peer) : healing.complete peer = (false, healing) := by
  cases out : healing.exchange with
  | none => simp [complete, out]
  | some exchange => simp [complete, out, other exchange out]

theorem InStep.complete (inStep : InStep interval timeout history healing)
    (peer : SocketAddress) (answer : Option Bool) :
    InStep interval timeout (history ++ [⟨.complete peer, answer⟩])
      (healing.complete peer).2 := by
  have stopped_iff : healing.stopped = true ↔ Stopped (history ++ [⟨.complete peer, answer⟩]) := by
    rw [stopped_append, inStep.stopped_iff]
    simp
  have next_eq (running : healing.stopped = false) :
      healing.next = nextRound interval (history ++ [⟨.complete peer, answer⟩]) := by
    rw [nextRound_append]
    exact inStep.next_eq running
  by_cases answers : ∃ exchange, healing.exchange = some exchange ∧ exchange.peer = peer
  · obtain ⟨exchange, out, rfl⟩ := answers
    rw [complete_of_answered out]
    refine ⟨inStep.interval_eq, inStep.timeout_eq, stopped_iff, next_eq, ?_, ?_, ?_⟩
    · intro exchange out
      cases out
    · intro other begun still
      rcases unanswered_append.mp still with same | ⟨before, unanswered, _⟩
      · cases same
      rcases inStep.unanswered other begun before with waits | passed
      · rw [out] at waits
        cases waits
        exact absurd rfl unanswered
      · exact Or.inr passed.append
    · intro _ _
      rfl
  · have other : ∀ exchange, healing.exchange = some exchange → exchange.peer ≠ peer :=
      fun exchange out same => answers ⟨exchange, out, same⟩
    rw [complete_of_other other]
    refine ⟨inStep.interval_eq, inStep.timeout_eq, stopped_iff, next_eq, ?_, ?_, ?_⟩
    · intro exchange out
      obtain ⟨begun, unanswered, deadline⟩ := inStep.pending exchange out
      refine ⟨begun, unanswered_append.mpr (Or.inr ⟨unanswered, ?_, by simp⟩), deadline⟩
      simpa using (other exchange out).symm
    · intro other begun still
      rcases unanswered_append.mp still with same | ⟨before, _⟩
      · cases same
      · exact (inStep.unanswered other begun before).imp_right Passed.append
    · intro moment last
      cases last_append last

theorem InStep.stop (inStep : InStep interval timeout history healing) :
    InStep interval timeout (history ++ [⟨.stop, none⟩]) healing.stop where
  interval_eq := inStep.interval_eq
  timeout_eq := inStep.timeout_eq
  stopped_iff := by
    rw [stopped_append]
    simp [Healing.stop]
  next_eq running := by cases running
  pending exchange out := by cases out
  unanswered peer begun still := by
    rcases unanswered_append.mp still with same | ⟨_, _, unstopped⟩
    · cases same
    · exact absurd rfl unstopped
  asked _ _ := rfl

theorem InStep.operate (inStep : InStep interval timeout history healing)
    (allowed : Allows history operation)
    (operated : healing.operate operation = .ok (answer, after)) :
    InStep interval timeout (history ++ [⟨operation, answer⟩]) after := by
  cases operation with
  | tick now =>
      obtain ⟨⟨due, next⟩, ticked, same⟩ := Attempt.map_eq_ok operated
      cases same
      by_cases stopped : healing.stopped = true
      · rw [tick_of_stopped stopped] at ticked
        cases ticked
        exact inStep.tick_stopped stopped
      have running : healing.stopped = false := Bool.not_eq_true _ ▸ stopped
      by_cases fits : now + healing.interval < Word.bound
      · rw [tick_of_running running fits] at ticked
        cases ticked
        refine inStep.ticked running _ fun asks => ?_
        exact Option.isNone_iff_eq_none.mp (Bool.and_eq_true_iff.mp asks).2
      · rw [tick_of_overflow running (Nat.le_of_not_lt fits)] at ticked
        cases ticked
  | begin peer now =>
      obtain ⟨next, begun, same⟩ := Attempt.map_eq_ok operated
      cases same
      rw [begin_eq_ok begun]
      exact inStep.begin (allowed.asked peer now rfl)
  | complete peer =>
      cases operated
      exact inStep.complete peer _
  | stop =>
      cases operated
      exact inStep.stop

theorem inStep_new (options : Options) :
    InStep options.healingInterval.toNat options.healingTimeout.toNat [] (new options) where
  interval_eq := rfl
  timeout_eq := rfl
  stopped_iff := by simp [new, Stopped]
  next_eq _ := rfl
  pending exchange out := by cases out
  unanswered peer begun unanswered := by
    obtain ⟨earlier, later, split, _⟩ := unanswered
    simp at split
  asked _ _ := rfl

theorem Runs.inStep {options : Options} (run : Runs (new options) history healing) :
    InStep options.healingInterval.toNat options.healingTimeout.toNat history healing := by
  induction run with
  | start => exact inStep_new options
  | operate _ allowed operated inStep => exact inStep.operate allowed operated

/-! ## The spacing of rounds -/

private theorem ticks_append (history : List Occurrence) (occurrence : Occurrence) :
    ticks (history ++ [occurrence]) = ticks history ++ ticks [occurrence] := by
  rw [ticks, List.filterMap_append]
  rfl

/-- A round that is put off comes later. -/
private theorem exists_schedule {round : Nat} (occurrence : Occurrence) :
    ∃ next, schedule interval (some round) occurrence = some next ∧ round ≤ next := by
  obtain ⟨operation, answer⟩ := occurrence
  cases operation with
  | tick now =>
      refine ⟨_, rfl, ?_⟩
      simp only [Option.getD_some]
      split
      · exact Nat.le_refl round
      · omega
  | begin | complete | stop => exact ⟨round, rfl, Nat.le_refl round⟩

private theorem nextRound_eq_none (unticked : ticks history = []) :
    nextRound interval history = none := by
  induction history using List.reverseRecOn with
  | nil => rfl
  | append_singleton earlier last inductionHypothesis =>
      rw [ticks_append, List.append_eq_nil_iff] at unticked
      rw [nextRound_append, inductionHypothesis unticked.1]
      obtain ⟨operation, answer⟩ := last
      cases operation with
      | tick now => exact absurd unticked.2 (List.cons_ne_nil now [])
      | begin | complete | stop => rfl

/-- No round is planned sooner than an interval after the first tick, nor after a tick that
asked for an exchange. -/
structure Spaced (interval : Nat) (history : List Occurrence) : Prop where
  first : ∀ moment, (ticks history).head? = some moment →
    ∃ round, nextRound interval history = some round ∧ moment + interval ≤ round
  asked : ∀ moment, ⟨.tick moment, some true⟩ ∈ history →
    ∃ round, nextRound interval history = some round ∧ moment + interval ≤ round

private theorem exists_nextRound_append {least round : Nat}
    (planned : nextRound interval history = some round) (late : least ≤ round) :
    ∃ next, nextRound interval (history ++ [occurrence]) = some next ∧ least ≤ next := by
  obtain ⟨next, scheduled, later⟩ := exists_schedule occurrence
  exact ⟨next, by rw [nextRound_append, planned, scheduled], Nat.le_trans late later⟩

theorem Spaced.append (spaced : Spaced interval history)
    (timely : ∀ now, occurrence = ⟨.tick now, some true⟩ →
      (nextRound interval history).getD (now + interval) ≤ now) :
    Spaced interval (history ++ [occurrence]) where
  first moment isFirst := by
    cases before : (ticks history).head? with
    | some earliest =>
        have same : earliest = moment := by
          rw [ticks_append, List.head?_append, before] at isFirst
          exact Option.some.inj isFirst
        obtain ⟨round, planned, late⟩ := spaced.first earliest before
        exact exists_nextRound_append planned (same ▸ late)
    | none =>
        have unticked : ticks history = [] := List.head?_eq_none_iff.mp before
        rw [ticks_append, unticked, List.nil_append] at isFirst
        rw [nextRound_append, nextRound_eq_none unticked]
        obtain ⟨operation, answer⟩ := occurrence
        cases operation with
        | tick now =>
            cases isFirst
            exact ⟨_, rfl, by simp⟩
        | begin | complete | stop => cases isFirst
  asked moment among := by
    rcases List.mem_append.mp among with before | last
    · obtain ⟨round, planned, late⟩ := spaced.asked moment before
      exact exists_nextRound_append planned late
    · have same := (List.mem_singleton.mp last).symm
      subst same
      refine ⟨moment + interval, ?_, Nat.le_refl _⟩
      rw [nextRound_append, schedule]
      simp only [if_neg (Nat.not_lt.mpr (timely moment rfl))]

/-- What a tick answers, told by the history. -/
private theorem InStep.asks_iff (inStep : InStep interval timeout history healing)
    (allowed : Allows history (.tick now)) (ticked : healing.tick now = .ok (due, after)) :
    due = true ↔ ¬ Stopped history ∧ (nextRound interval history).getD (now + interval) ≤ now ∧
      ¬ Outstanding timeout history now := by
  by_cases stopped : healing.stopped = true
  · rw [tick_of_stopped stopped] at ticked
    cases ticked
    simp [inStep.stopped_iff.mp stopped]
  have running : healing.stopped = false := Bool.not_eq_true _ ▸ stopped
  have unstopped : ¬ Stopped history := fun halted => stopped (inStep.stopped_iff.mpr halted)
  have round : healing.roundAt now = (nextRound interval history).getD (now + interval) := by
    rw [roundAt, inStep.next_eq running, inStep.interval_eq]
  have waits := inStep.outstanding_iff (allowed.forward now rfl)
  by_cases fits : now + healing.interval < Word.bound
  · rw [tick_of_running running fits] at ticked
    cases ticked
    rw [Bool.and_eq_true, decide_eq_true_iff, round, ← waits, Option.isNone_iff_eq_none,
      Option.not_isSome_iff_eq_none]
    exact (and_iff_right unstopped).symm
  · rw [tick_of_overflow running (Nat.le_of_not_lt fits)] at ticked
    cases ticked

theorem Runs.spaced {options : Options} (run : Runs (new options) history healing) :
    Spaced options.healingInterval.toNat history := by
  induction run with
  | start =>
      constructor
      · intro moment isFirst
        cases isFirst
      · intro moment among
        cases among
  | @operate history before after operation answer run allowed operated spaced =>
      refine spaced.append fun now same => ?_
      cases same
      obtain ⟨⟨due, next⟩, ticked, same⟩ := Attempt.map_eq_ok operated
      cases same
      exact ((run.inStep.asks_iff allowed ticked).mp rfl).2.1

/-- In every run a tick asks for an exchange exactly if the loop was not stopped, the next
scheduled round has come, and no exchange is out whose deadline has not come.  It then
comes at least an interval after every tick that asked before, and after the first tick.
A tick has no answer only if a running loop cannot tell when the next round would be. -/
theorem asks_when_due {options : Options} (run : Runs (new options) history healing)
    (allowed : Allows history (.tick now)) :
    let interval := options.healingInterval.toNat
    ((∃ answer, healing.tick now = .ok answer) ↔
        Stopped history ∨ now + interval < Word.bound) ∧
      ∀ due after, healing.tick now = .ok (due, after) →
        (due = true ↔
            ¬ Stopped history ∧ (nextRound interval history).getD (now + interval) ≤ now ∧
              ¬ Outstanding options.healingTimeout.toNat history now) ∧
          (due = true →
            (ticks history).head?.getD now + interval ≤ now ∧
              ∀ earlier, ⟨.tick earlier, some true⟩ ∈ history → earlier + interval ≤ now) := by
  have inStep := run.inStep
  refine ⟨?_, fun due after ticked => ?_⟩
  · rw [← inStep.stopped_iff]
    cases stopped : healing.stopped with
    | true => exact iff_of_true ⟨_, tick_of_stopped stopped⟩ (Or.inl rfl)
    | false =>
        rw [← inStep.interval_eq]
        by_cases fits : now + healing.interval < Word.bound
        · exact iff_of_true ⟨_, tick_of_running stopped fits⟩ (Or.inr fits)
        · rw [tick_of_overflow stopped (Nat.le_of_not_lt fits)]
          simp [fits]
  · have asks := inStep.asks_iff allowed ticked
    refine ⟨asks, ?_⟩
    rintro rfl
    have round := (asks.mp rfl).2.1
    constructor
    · cases isFirst : (ticks history).head? with
      | none =>
          rwa [nextRound_eq_none (List.head?_eq_none_iff.mp isFirst)] at round
      | some first =>
          obtain ⟨planned, found, late⟩ := run.spaced.first first isFirst
          rw [found, Option.getD_some] at round
          exact Nat.le_trans late round
    · intro earlier among
      obtain ⟨planned, found, late⟩ := run.spaced.asked earlier among
      rw [found, Option.getD_some] at round
      exact Nat.le_trans late round

def hasty : Options :=
  { healingInterval := 1000, healingTimeout := 3000 }

def neighbour : SocketAddress :=
  ⟨.v4 0x7f000001, 7001, 0⟩

def unansweredRound : List Occurrence :=
  [⟨.tick 0, some false⟩, ⟨.tick 1000, some true⟩, ⟨.begin neighbour 1000, none⟩,
    ⟨.tick 2000, some false⟩, ⟨.tick 3000, some false⟩]

def waitingForNeighbour : Healing :=
  { new hasty with next := some 4000, exchange := some ⟨neighbour, 4000⟩ }

private theorem runs_unansweredRound : Runs (new hasty) unansweredRound waitingForNeighbour := by
  have begun : Runs (new hasty) (unansweredRound.take 2) { new hasty with next := some 2000 } :=
    (Runs.start.operate ⟨by simp, by simp⟩ rfl).operate ⟨by simp [Operation.moment?], by simp⟩ rfl
  exact
    ((begun.operate ⟨by simp [unansweredRound, Operation.moment?], by simp [unansweredRound]⟩
        rfl).operate ⟨by simp [unansweredRound, Operation.moment?], by simp⟩ rfl).operate
      ⟨by simp [unansweredRound, Operation.moment?], by simp⟩ rfl

private theorem allows_unansweredRound : Allows unansweredRound (.tick 4000) where
  forward := by simp [unansweredRound, Operation.moment?]
  asked := by simp

theorem asks_when_due_unanswered :
    Runs (new hasty) unansweredRound waitingForNeighbour ∧
      Allows unansweredRound (.tick 4000) ∧
        waitingForNeighbour.tick 4000 = .ok (true, { new hasty with next := some 5000 }) ∧
          ¬ Outstanding 3000 unansweredRound 4000 ∧
            ∀ earlier, ⟨.tick earlier, some true⟩ ∈ unansweredRound → earlier + 1000 ≤ 4000 := by
  obtain ⟨_, asks⟩ := asks_when_due runs_unansweredRound allows_unansweredRound
  have ticked :
      waitingForNeighbour.tick 4000 = .ok (true, { new hasty with next := some 5000 }) :=
    rfl
  obtain ⟨due, apart⟩ := asks true _ ticked
  exact
    ⟨runs_unansweredRound, allows_unansweredRound, ticked, (due.mp rfl).2.2, (apart rfl).2⟩

end Healing

end Roster
