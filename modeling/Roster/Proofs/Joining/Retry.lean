import Mathlib.Data.List.Chain
import Roster.Proofs.Joining.Run

/-!
# How a join is tried again

The milestones of a run come in order.  While a join is pending its attempt is given
up and begun again by turns: given up no sooner than the timeout after it began, and
begun again no sooner than the delay after that.  A retry goes to all seeds that were
ever asked for.  Once a response has completed the join nothing happens until a request
opens another attempt, and after a stop nothing happens at all.
-/

namespace Roster

namespace Joining

variable {joining after : Joining} {operation : Operation} {answer : Answer}
  {occurrence : Occurrence} {history : List Occurrence} {timeout delay : Nat}

/-! ## The order of milestones -/

namespace Milestone

def began? : Milestone → Option Nat
  | .opened moment | .renewed moment => some moment
  | _ => none

def isPending : Milestone → Bool
  | .opened _ | .lapsed _ | .renewed _ => true
  | _ => false

/-- What may come right after a milestone.  Only a stop comes after a stop. -/
inductive Precedes (timeout delay : Nat) : Milestone → Milestone → Prop where
  | opens (moment : Nat) : Precedes timeout delay .rested (.opened moment)
  | lapses {milestone : Milestone} {began moment : Nat} (begun : milestone.began? = some began)
      (late : began + timeout ≤ moment) : Precedes timeout delay milestone (.lapsed moment)
  | renews {lapsed moment : Nat} (late : lapsed + delay ≤ moment) :
      Precedes timeout delay (.lapsed lapsed) (.renewed moment)
  | rests {milestone : Milestone} (pending : milestone.isPending = true) :
      Precedes timeout delay milestone .rested
  | stops (milestone : Milestone) : Precedes timeout delay milestone .stopped

/-- The phase in which a milestone leaves the loop. -/
def Leaves (timeout delay : Nat) : Milestone → JoinPhase → Prop
  | .rested, phase => phase = .idle ∨ phase = .joined
  | .opened began, phase | .renewed began, phase => phase = .attempting (began + timeout)
  | .lapsed moment, phase => phase = .waiting (moment + delay)
  | .stopped, phase => phase = .stopped

variable {milestone : Milestone} {deadline retryAt : Nat}

private theorem Leaves.isPending_eq (leaves : milestone.Leaves timeout delay joining.phase) :
    joining.isPending = milestone.isPending := by
  cases milestone with
  | rested => rcases leaves with idle | joined <;> simp [Joining.isPending, isPending, *]
  | opened | lapsed | renewed | stopped =>
      have phase : joining.phase = _ := leaves
      simp [Joining.isPending, isPending, phase]

private theorem Leaves.rested_of_idle (leaves : milestone.Leaves timeout delay joining.phase)
    (running : joining.isStopped = false) (idle : joining.isPending = false) :
    milestone = .rested := by
  rw [leaves.isPending_eq] at idle
  cases milestone with
  | rested => rfl
  | opened | lapsed | renewed => cases idle
  | stopped =>
      rw [isStopped_eq_true_iff.mpr leaves] at running
      cases running

private theorem Leaves.began_of_attempting
    (leaves : milestone.Leaves timeout delay (.attempting deadline)) :
    ∃ began, milestone.began? = some began ∧ deadline = began + timeout := by
  cases milestone with
  | opened began | renewed began =>
      cases leaves
      exact ⟨began, rfl, rfl⟩
  | rested => rcases leaves with idle | joined <;> contradiction
  | lapsed | stopped => cases leaves

private theorem Leaves.lapsed_of_waiting
    (leaves : milestone.Leaves timeout delay (.waiting retryAt)) :
    ∃ moment, milestone = .lapsed moment ∧ retryAt = moment + delay := by
  cases milestone with
  | lapsed moment =>
      cases leaves
      exact ⟨moment, rfl, rfl⟩
  | rested => rcases leaves with idle | joined <;> contradiction
  | opened | renewed | stopped => cases leaves

end Milestone

def milestones (history : List Occurrence) : List Milestone :=
  .rested :: history.filterMap Occurrence.milestone?

private theorem milestones_append (history : List Occurrence) (occurrence : Occurrence) :
    milestones (history ++ [occurrence]) =
      milestones history ++ occurrence.milestone?.toList := by
  rw [milestones, List.filterMap_append, ← List.cons_append, ← milestones]
  cases reached : occurrence.milestone? with
  | none => simp [reached]
  | some milestone => simp [reached]

/-- The milestones came in order, and the last of them left the loop in its phase. -/
structure InOrder (timeout delay : Nat) (history : List Occurrence) (joining : Joining) :
    Prop where
  chain : (milestones history).IsChain (Milestone.Precedes timeout delay)
  leaves : ∃ latest, (milestones history).getLast? = some latest ∧
    latest.Leaves timeout delay joining.phase

theorem InOrder.stay (inOrder : InOrder timeout delay history joining)
    (nothing : occurrence.milestone? = none)
    (samePhase : after.phase = joining.phase) :
    InOrder timeout delay (history ++ [occurrence]) after := by
  obtain ⟨chain, latest, last, leaves⟩ := inOrder
  have same : milestones (history ++ [occurrence]) = milestones history := by
    rw [milestones_append, nothing, Option.toList_none, List.append_nil]
  exact ⟨same ▸ chain, latest, same ▸ last, samePhase ▸ leaves⟩

theorem InOrder.reach (inOrder : InOrder timeout delay history joining) (next : Milestone)
    (reached : occurrence.milestone? = some next)
    (precedes : ∀ latest : Milestone, latest.Leaves timeout delay joining.phase →
      latest.Precedes timeout delay next)
    (leaves : next.Leaves timeout delay after.phase) :
    InOrder timeout delay (history ++ [occurrence]) after := by
  obtain ⟨chain, latest, last, leavesBefore⟩ := inOrder
  have extended : milestones (history ++ [occurrence]) = milestones history ++ [next] := by
    rw [milestones_append, reached, Option.toList_some]
  refine ⟨?_, next, ?_, leaves⟩
  · rw [extended]
    refine chain.append (List.isChain_singleton next) ?_
    intro before isLast first isFirst
    cases isFirst
    rw [last] at isLast
    cases isLast
    exact precedes latest leavesBefore
  · rw [extended, List.getLast?_append]
    rfl

theorem InOrder.operate (inOrder : InOrder joining.timeout joining.delay history joining)
    (operated : joining.operate operation = .ok (answer, after)) :
    InOrder joining.timeout joining.delay (history ++ [⟨joining, operation, answer, after⟩])
      after := by
  cases turns_of_operate operated with
  | refuse | share | finish | overhear | wait => exact inOrder.stay rfl rfl
  | add pending unknown =>
      refine inOrder.stay ?_ rfl
      simp [Occurrence.milestone?, pending]
  | @begin seeds now running idle remote =>
      refine inOrder.reach (.opened now) ?_ (fun latest leaves => ?_) rfl
      · simp [Occurrence.milestone?, idle]
      · rw [leaves.rested_of_idle running idle]
        exact .opens now
  | answer pending =>
      refine inOrder.reach .rested rfl (fun latest leaves => ?_) (Or.inr rfl)
      exact .rests (leaves.isPending_eq ▸ pending)
  | @lapse now deadline attempting due =>
      refine inOrder.reach (.lapsed now) rfl (fun latest leaves => ?_) rfl
      rw [attempting] at leaves
      obtain ⟨began, begun, rfl⟩ := leaves.began_of_attempting
      exact .lapses begun due
  | @renew now retryAt waiting due =>
      refine inOrder.reach (.renewed now) rfl (fun latest leaves => ?_) rfl
      rw [waiting] at leaves
      obtain ⟨moment, rfl, rfl⟩ := leaves.lapsed_of_waiting
      exact .renews due
  | stop => exact inOrder.reach .stopped rfl (fun latest _ => .stops latest) rfl

theorem Runs.inOrder {start : Joining} (run : Runs start history joining)
    (rested : start.phase = .idle) : InOrder start.timeout start.delay history joining := by
  induction run with
  | start => exact ⟨List.isChain_singleton _, .rested, rfl, Or.inl rested⟩
  | operate run operated inOrder =>
      obtain ⟨_, timeout, delay⟩ := run.settings
      rw [← timeout, ← delay] at inOrder ⊢
      exact inOrder.operate operated

/-! ## Loops at rest -/

private theorem check_of_not_isPending (idle : joining.isPending = false) (now : Nat) :
    joining.check now = .ok (none, joining) := by
  unfold check
  cases phase : joining.phase with
  | attempting | waiting => simp [isPending, phase] at idle
  | idle | joined | stopped => rfl

/-- Only a request that opens an attempt makes a loop pending. -/
private theorem Turns.isPending_eq_false (turns : Turns joining operation answer after)
    (idle : joining.isPending = false)
    (unopened : ¬ Occurrence.Opens ⟨joining, operation, answer, after⟩) :
    after.isPending = false := by
  cases turns with
  | refuse | overhear | wait => exact idle
  | share pending | add pending | answer pending =>
      rw [idle] at pending
      cases pending
  | finish => rwa [isPending_heard]
  | @begin seeds now =>
      refine absurd ⟨now, ?_⟩ unopened
      simp [Occurrence.milestone?, idle]
  | lapse attempting => simp [isPending, attempting] at idle
  | renew waiting => simp [isPending, waiting] at idle
  | stop => rfl

/-- A response has completed a join, and no request has opened an attempt since. -/
def Completed (history : List Occurrence) : Prop :=
  ∃ earlier response later, history = earlier ++ response :: later ∧
    response.answer = .completed true ∧ ∀ occurrence ∈ later, ¬ occurrence.Opens

def Halted (history : List Occurrence) : Prop :=
  ∃ occurrence ∈ history, occurrence.operation = .stop

private theorem completed_append (completed : Completed (history ++ [occurrence])) :
    occurrence.answer = .completed true ∨ Completed history ∧ ¬ occurrence.Opens := by
  obtain ⟨earlier, response, later, split, answered, unopened⟩ := completed
  rcases List.eq_nil_or_concat' later with rfl | ⟨front, last, rfl⟩
  · obtain ⟨_, same⟩ := List.append_inj' split rfl
    cases same
    exact Or.inl answered
  · rw [← List.cons_append, ← List.append_assoc] at split
    obtain ⟨sameHistory, same⟩ := List.append_inj' split rfl
    cases same
    refine Or.inr ⟨⟨earlier, response, front, sameHistory, answered, ?_⟩, ?_⟩
    · exact fun other among => unopened other (List.mem_append_left _ among)
    · exact unopened _ (List.mem_append_right _ (List.mem_singleton_self _))

private theorem Runs.idle_of_completed {start : Joining} (run : Runs start history joining)
    (completed : Completed history) : joining.isPending = false := by
  induction run with
  | start =>
      obtain ⟨earlier, response, later, split, _⟩ := completed
      simp at split
  | operate run operated inductionHypothesis =>
      have turns := turns_of_operate operated
      rcases completed_append completed with answered | ⟨before, unopened⟩
      · cases turns with
        | answer => rfl
        | _ => cases answered
      · exact turns.isPending_eq_false (inductionHypothesis before) unopened

private theorem Runs.stopped_of_halted {start : Joining} (run : Runs start history joining)
    (halted : Halted history) : joining.isStopped = true := by
  induction run with
  | start =>
      obtain ⟨_, among, _⟩ := halted
      cases among
  | operate run operated inductionHypothesis =>
      have turns := turns_of_operate operated
      obtain ⟨occurrence, among, stops⟩ := halted
      rcases List.mem_append.mp among with before | last
      · exact turns.isStopped (inductionHypothesis ⟨occurrence, before, stops⟩)
      · rw [List.mem_singleton.mp last] at stops
        cases stops
        cases turns
        simp [isStopped]

/-! ## Retries -/

/-- A retry goes to the seeds that the loop knows. -/
private theorem contact_of_check {contacted : List SocketAddress} {now : Nat}
    (checked : joining.check now = .ok (some (.contact contacted), after)) :
    joining.isPending = true ∧ contacted = joining.seeds.keys := by
  cases turns_of_check checked with
  | renew waiting => exact ⟨isPending_eq_true_iff.mpr (Or.inr ⟨_, waiting⟩), rfl⟩

/-- A loop that is pending knows a seed. -/
def Seeded (joining : Joining) : Prop :=
  joining.isPending = true → ∃ seed, joining.seeds.contains seed = true

theorem Seeded.heard (seeded : joining.Seeded) (seeds : List SocketAddress) :
    (joining.heard seeds).Seeded := by
  intro pending
  rw [isPending_heard] at pending
  obtain ⟨seed, known⟩ := seeded pending
  exact ⟨seed, contains_heard.mpr (Or.inl known)⟩

theorem Turns.seeded (turns : Turns joining operation answer after) (seeded : joining.Seeded) :
    after.Seeded := by
  cases turns with
  | refuse | overhear | wait => exact seeded
  | share | add | finish => exact seeded.heard _
  | begin _ _ remote =>
      obtain ⟨seed, asked⟩ := List.exists_mem_of_ne_nil _ remote
      exact fun _ => ⟨seed, contains_heard.mpr (Or.inr (mem_remote_iff.mp asked))⟩
  | lapse attempting =>
      exact fun _ => seeded (isPending_eq_true_iff.mpr (Or.inl ⟨_, attempting⟩))
  | renew waiting => exact fun _ => seeded (isPending_eq_true_iff.mpr (Or.inr ⟨_, waiting⟩))
  | answer | stop =>
      intro pending
      simp [isPending] at pending

theorem Runs.seeded {start : Joining} (run : Runs start history joining)
    (seeded : start.Seeded) : joining.Seeded := by
  induction run with
  | start => exact seeded
  | operate _ operated inductionHypothesis =>
      exact (turns_of_operate operated).seeded inductionHypothesis

/-- In every run of the loop its milestones alternate as `Precedes` says: an attempt is
given up no sooner than the timeout after it began, and begun again no sooner than the
delay after it was given up.  A retry names all seeds that were asked for, the own
address apart, and there is one.  After a response has completed the join nothing is
due until a request opens another attempt, and after a stop nothing is contacted any
more. -/
theorem retried_in_order {own : SocketAddress} {options : Options}
    (run : Runs (new own options) history joining) :
    (milestones history).IsChain
        (Milestone.Precedes options.joinTimeout.toNat (new own options).delay) ∧
      (∀ now contacted after, joining.check now = .ok (some (.contact contacted), after) →
        contacted ≠ [] ∧ contacted.Nodup ∧
          ∀ seed, seed ∈ contacted ↔ seed ≠ own ∧ Requested history seed) ∧
      (Completed history → ∀ now, joining.check now = .ok (none, joining)) ∧
      (Halted history → ∀ now, joining.check now = .ok (none, joining) ∧
        ∀ seeds, joining.join seeds now = .ok (.stopped, joining)) := by
  refine ⟨(run.inOrder rfl).chain, ?_, ?_, ?_⟩
  · intro now contacted after checked
    obtain ⟨pending, rfl⟩ := contact_of_check checked
    refine ⟨?_, SortedMap.nodup_keys _, fun seed => ?_⟩
    · have idle : (new own options).Seeded := by
        intro begun
        cases begun
      obtain ⟨seed, known⟩ := run.seeded idle pending
      exact List.ne_nil_of_mem (SortedMap.mem_keys_iff.mpr known)
    rw [SortedMap.mem_keys_iff, run.knows rfl (isStopped_of_isPending pending), run.settings.1]
    rfl
  · intro completed now
    exact check_of_not_isPending (run.idle_of_completed completed) now
  · intro halted now
    have stopped := run.stopped_of_halted halted
    have idle : joining.isPending = false := by
      rw [← Bool.not_eq_true]
      intro pending
      rw [isStopped_of_isPending pending] at stopped
      cases stopped
    exact ⟨check_of_not_isPending idle now, fun seeds => join_of_isStopped stopped⟩

def patient : Joining :=
  { seeking with phase := .waiting 10000 }

def patientForBoth : Joining :=
  { seekingAgain with phase := .waiting 10000 }

def retrying : Joining :=
  { seekingAgain with phase := .attempting 15000 }

def retriedOnce : List Occurrence :=
  [⟨new home {}, .join [firstSeed] 0, .started (.contact [firstSeed]), seeking⟩,
    ⟨seeking, .check 5000, .stepped (some (.retryingAt 10000)), patient⟩,
    ⟨patient, .join [secondSeed] 7000, .started (.contact [secondSeed]), patientForBoth⟩,
    ⟨patientForBoth, .check 10000, .stepped (some (.contact [firstSeed, secondSeed])), retrying⟩,
    ⟨retrying, .respond, .completed true, { retrying with phase := .joined }⟩]

private theorem runs_retriedOnce :
    Runs (new home {}) retriedOnce { retrying with phase := .joined } :=
  ((((Runs.start.operate rfl).operate rfl).operate rfl).operate rfl).operate rfl

theorem retried_in_order_answered :
    Runs (new home {}) retriedOnce { retrying with phase := .joined } ∧
      [Milestone.rested, .opened 0, .lapsed 5000, .renewed 10000, .rested].IsChain
          (Milestone.Precedes 5000 5000) ∧
        Completed retriedOnce ∧
          ∀ now, Joining.check { retrying with phase := .joined } now =
            .ok (none, { retrying with phase := .joined }) := by
  obtain ⟨chain, _, quiet, _⟩ := retried_in_order runs_retriedOnce
  have completed : Completed retriedOnce :=
    ⟨retriedOnce.take 4, _, [], rfl, rfl, fun _ among => absurd among List.not_mem_nil⟩
  exact ⟨runs_retriedOnce, chain, completed, quiet completed⟩

end Joining

end Roster
