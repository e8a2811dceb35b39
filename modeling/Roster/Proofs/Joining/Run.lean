import Roster.Proofs.Joining

/-!
# Runs of the join loop

A run of the loop is what was asked of it, in any order and at any moments.  Every
operation takes one of a few turns, and each of these is seen from outside by the
answer.

The loop knows the seeds that were ever asked for, and a request that names none
besides shares the attempt that is out.  That attempt may not have gone to them
all: seeds that were asked for before the loop became pending, and not by the
request that made it so, are passed over until the loop tries again.
-/

namespace Roster

namespace Joining

/-! ## Operations -/

inductive Operation where
  | join (seeds : List SocketAddress) (now : Nat)
  | respond
  | check (now : Nat)
  | stop
  deriving DecidableEq, Repr

inductive Answer where
  | started (start : JoinStart)
  | completed (pending : Bool)
  | stepped (made : Option JoinStep)
  | ended (pending : Bool)
  deriving DecidableEq, Repr

def Answer.named : Answer → List SocketAddress
  | .started (.contact seeds) | .stepped (some (.contact seeds)) => seeds
  | _ => []

def operate (joining : Joining) : Operation → Except Overflow (Answer × Joining)
  | .join seeds now => (joining.join seeds now).map fun (start, after) => (.started start, after)
  | .respond => .ok (.completed joining.respond.1, joining.respond.2)
  | .check now => (joining.check now).map fun (made, after) => (.stepped made, after)
  | .stop => .ok (.ended joining.stop.1, joining.stop.2)

variable {start joining after : Joining} {seeds : List SocketAddress} {seed : SocketAddress}
  {now : Nat} {operation : Operation} {answer : Answer}

theorem isPending_eq_true_iff :
    joining.isPending = true ↔
      (∃ deadline, joining.phase = .attempting deadline) ∨
        ∃ retryAt, joining.phase = .waiting retryAt := by
  unfold isPending
  cases joining.phase <;> simp

theorem isStopped_eq_true_iff : joining.isStopped = true ↔ joining.phase = .stopped := by
  simp [isStopped]

theorem isStopped_of_isPending (pending : joining.isPending = true) :
    joining.isStopped = false := by
  rcases isPending_eq_true_iff.mp pending with ⟨deadline, phase⟩ | ⟨retryAt, phase⟩
  · simp [isStopped, phase]
  · simp [isStopped, phase]

theorem mem_remote_iff : seed ∈ joining.remote seeds ↔ seed ∈ seeds ∧ seed ≠ joining.own := by
  rw [remote, SortedMap.mem_keys_iff, SortedSet.contains_ofList, List.mem_filter]
  simp

private theorem contains_foldl_add (added : List SocketAddress) (set : SortedSet SocketAddress) :
    (added.foldl SortedSet.add set).contains seed = true ↔
      set.contains seed = true ∨ seed ∈ added := by
  induction added generalizing set with
  | nil => simp
  | cons first rest inductionHypothesis =>
      rw [List.foldl_cons, inductionHypothesis, SortedSet.contains_add, List.mem_cons]
      tauto

/-- The loop knows what it knew and what it is asked for. -/
theorem contains_heard :
    (joining.heard seeds).seeds.contains seed = true ↔
      joining.seeds.contains seed = true ∨ seed ∈ seeds ∧ seed ≠ joining.own := by
  rw [heard, contains_foldl_add, mem_remote_iff]

def fresh (joining : Joining) (seeds : List SocketAddress) : List SocketAddress :=
  (joining.remote seeds).filter fun seed => !joining.seeds.contains seed

private theorem mem_fresh_iff :
    seed ∈ joining.fresh seeds ↔
      (seed ∈ seeds ∧ seed ≠ joining.own) ∧ joining.seeds.contains seed = false := by
  rw [fresh, List.mem_filter, mem_remote_iff]
  simp

/-- A pending loop shares its attempt with a request, or contacts the seeds that it did
not know. -/
private theorem join_of_fresh (pending : joining.isPending = true) :
    joining.join seeds now =
      if joining.fresh seeds = [] then
        .ok (.coalesced, joining.heard seeds)
      else
        .ok (.contact (joining.fresh seeds), joining.heard seeds) := by
  rw [join_of_running (isStopped_of_isPending pending)]
  simp only [pending, if_true]
  by_cases known : joining.fresh seeds = []
  · rw [if_pos known]
    rw [fresh] at known
    rw [if_pos (List.isEmpty_iff.mpr known)]
  · rw [if_neg known]
    rw [fresh, ← List.isEmpty_iff] at known
    rw [if_neg known]
    rfl

/-! ## Turns -/

/-- Everything that an operation can come to. -/
inductive Turns (joining : Joining) : Operation → Answer → Joining → Prop where
  | refuse {seeds : List SocketAddress} {now : Nat} (stopped : joining.phase = .stopped) :
      Turns joining (.join seeds now) (.started .stopped) joining
  | share {seeds : List SocketAddress} {now : Nat} (pending : joining.isPending = true)
      (known : joining.fresh seeds = []) :
      Turns joining (.join seeds now) (.started .coalesced) (joining.heard seeds)
  | add {seeds : List SocketAddress} {now : Nat} (pending : joining.isPending = true)
      (unknown : joining.fresh seeds ≠ []) :
      Turns joining (.join seeds now) (.started (.contact (joining.fresh seeds)))
        (joining.heard seeds)
  | finish {seeds : List SocketAddress} {now : Nat} (running : joining.isStopped = false)
      (idle : joining.isPending = false) (alone : joining.remote seeds = []) :
      Turns joining (.join seeds now) (.started .complete) (joining.heard seeds)
  | begin {seeds : List SocketAddress} {now : Nat} (running : joining.isStopped = false)
      (idle : joining.isPending = false) (remote : joining.remote seeds ≠ []) :
      Turns joining (.join seeds now) (.started (.contact (joining.remote seeds)))
        { joining.heard seeds with phase := .attempting (now + joining.timeout) }
  | answer (pending : joining.isPending = true) :
      Turns joining .respond (.completed true) { joining with phase := .joined }
  | overhear (idle : joining.isPending = false) :
      Turns joining .respond (.completed false) joining
  | wait {now : Nat} : Turns joining (.check now) (.stepped none) joining
  | lapse {now deadline : Nat} (attempting : joining.phase = .attempting deadline)
      (due : deadline ≤ now) :
      Turns joining (.check now) (.stepped (some (.retryingAt (now + joining.delay))))
        { joining with phase := .waiting (now + joining.delay) }
  | renew {now retryAt : Nat} (waiting : joining.phase = .waiting retryAt)
      (due : retryAt ≤ now) :
      Turns joining (.check now) (.stepped (some (.contact joining.seeds.keys)))
        { joining with phase := .attempting (now + joining.timeout) }
  | stop : Turns joining .stop (.ended joining.isPending) { joining with phase := .stopped }

private theorem turns_of_join {begun : JoinStart}
    (joined : joining.join seeds now = .ok (begun, after)) :
    Turns joining (.join seeds now) (.started begun) after := by
  by_cases stopped : joining.isStopped = true
  · rw [join_of_isStopped stopped] at joined
    cases joined
    exact .refuse (isStopped_eq_true_iff.mp stopped)
  have running : joining.isStopped = false := Bool.not_eq_true _ ▸ stopped
  by_cases pending : joining.isPending = true
  · rw [join_of_fresh pending] at joined
    by_cases known : joining.fresh seeds = []
    · rw [if_pos known] at joined
      cases joined
      exact .share pending known
    · rw [if_neg known] at joined
      cases joined
      exact .add pending known
  have idle : joining.isPending = false := Bool.not_eq_true _ ▸ pending
  by_cases alone : joining.remote seeds = []
  · rw [join_of_remote_nil running idle alone] at joined
    cases joined
    exact .finish running idle alone
  · rw [join_of_remote running idle alone] at joined
    obtain ⟨deadline, added, returned⟩ := Attempt.bind_eq_ok joined
    cases returned
    rw [Word.eq_add_of_ok added]
    exact .begin running idle alone

theorem turns_of_check {made : Option JoinStep}
    (checked : joining.check now = .ok (made, after)) :
    Turns joining (.check now) (.stepped made) after := by
  unfold check at checked
  split at checked
  · rename_i deadline attempting
    split at checked
    · cases checked
      exact .wait
    · rename_i due
      obtain ⟨retryAt, added, returned⟩ := Attempt.bind_eq_ok checked
      cases returned
      rw [Word.eq_add_of_ok added]
      exact .lapse attempting (Nat.le_of_not_lt due)
  · rename_i retryAt waiting
    split at checked
    · cases checked
      exact .wait
    · rename_i due
      obtain ⟨deadline, added, returned⟩ := Attempt.bind_eq_ok checked
      cases returned
      rw [Word.eq_add_of_ok added]
      exact .renew waiting (Nat.le_of_not_lt due)
  · cases checked
    exact .wait

theorem turns_of_operate (operated : joining.operate operation = .ok (answer, after)) :
    Turns joining operation answer after := by
  cases operation with
  | join seeds now =>
      obtain ⟨⟨begun, next⟩, joined, same⟩ := Attempt.map_eq_ok operated
      cases same
      exact turns_of_join joined
  | respond =>
      cases operated
      by_cases pending : joining.isPending = true
      · rw [respond, if_pos pending]
        exact .answer pending
      · rw [respond, if_neg pending]
        exact .overhear (Bool.not_eq_true _ ▸ pending)
  | check now =>
      obtain ⟨⟨made, next⟩, checked, same⟩ := Attempt.map_eq_ok operated
      cases same
      exact turns_of_check checked
  | stop =>
      cases operated
      exact .stop

/-- A loop that was stopped stays so. -/
theorem Turns.isStopped (turns : Turns joining operation answer after)
    (stopped : joining.isStopped = true) : after.isStopped = true := by
  have phase := isStopped_eq_true_iff.mp stopped
  cases turns with
  | refuse | overhear | wait => exact stopped
  | share pending | add pending | answer pending =>
      rw [isStopped_of_isPending pending] at stopped
      cases stopped
  | finish running | begin running =>
      rw [running] at stopped
      cases stopped
  | lapse attempting =>
      rw [phase] at attempting
      cases attempting
  | renew waiting =>
      rw [phase] at waiting
      cases waiting
  | stop => simp [Joining.isStopped]

/-- No operation changes the own address, the timeout or the delay. -/
theorem Turns.settings (turns : Turns joining operation answer after) :
    after.own = joining.own ∧ after.timeout = joining.timeout ∧
      after.delay = joining.delay := by
  cases turns <;> exact ⟨rfl, rfl, rfl⟩

/-! ## Runs -/

structure Occurrence where
  before : Joining
  operation : Operation
  answer : Answer
  after : Joining

inductive Runs (start : Joining) : List Occurrence → Joining → Prop where
  | start : Runs start [] start
  | operate {history : List Occurrence} {before after : Joining} {operation : Operation}
      {answer : Answer} (run : Runs start history before)
      (operated : before.operate operation = .ok (answer, after)) :
      Runs start (history ++ [⟨before, operation, answer, after⟩]) after

def Requested (history : List Occurrence) (seed : SocketAddress) : Prop :=
  ∃ occurrence ∈ history, ∃ seeds now, occurrence.operation = .join seeds now ∧ seed ∈ seeds

def Named (history : List Occurrence) (seed : SocketAddress) : Prop :=
  ∃ occurrence ∈ history, seed ∈ occurrence.answer.named

variable {history earlier later : List Occurrence} {occurrence opening : Occurrence}

theorem requested_append :
    Requested (history ++ later) seed ↔ Requested history seed ∨ Requested later seed := by
  simp only [Requested, List.mem_append, or_and_right, exists_or]

private theorem requested_singleton :
    Requested [occurrence] seed ↔
      ∃ seeds now, occurrence.operation = .join seeds now ∧ seed ∈ seeds := by
  simp [Requested]

private theorem named_append :
    Named (history ++ later) seed ↔ Named history seed ∨ Named later seed := by
  simp only [Named, List.mem_append, or_and_right, exists_or]

theorem named_singleton : Named [occurrence] seed ↔ seed ∈ occurrence.answer.named := by
  simp [Named]

theorem Runs.settings (run : Runs start history joining) :
    joining.own = start.own ∧ joining.timeout = start.timeout ∧
      joining.delay = start.delay := by
  induction run with
  | start => exact ⟨rfl, rfl, rfl⟩
  | operate _ operated inductionHypothesis =>
      obtain ⟨own, timeout, delay⟩ := (turns_of_operate operated).settings
      obtain ⟨ownBefore, timeoutBefore, delayBefore⟩ := inductionHypothesis
      exact ⟨own.trans ownBefore, timeout.trans timeoutBefore, delay.trans delayBefore⟩

/-! ## Known seeds -/

/-- Unless it was stopped, the loop knows exactly the seeds that it was asked for. -/
def Knows (history : List Occurrence) (joining : Joining) : Prop :=
  joining.isStopped = false → ∀ seed, joining.seeds.contains seed = true ↔
    seed ≠ joining.own ∧ Requested history seed

theorem Turns.contains_iff (turns : Turns joining operation answer after)
    (running : after.isStopped = false) :
    after.seeds.contains seed = true ↔
      joining.seeds.contains seed = true ∨
        seed ≠ joining.own ∧ ∃ seeds now, operation = .join seeds now ∧ seed ∈ seeds := by
  have heard (seeds : List SocketAddress) (now : Nat) :
      (joining.heard seeds).seeds.contains seed = true ↔
        joining.seeds.contains seed = true ∨
          seed ≠ joining.own ∧
            ∃ others moment, Operation.join seeds now = .join others moment ∧ seed ∈ others := by
    rw [contains_heard, and_comm]
    simp
  cases turns with
  | refuse stopped =>
      rw [isStopped_eq_true_iff.mpr stopped] at running
      cases running
  | @share seeds now | @add seeds now | @finish seeds now | @begin seeds now =>
      exact heard seeds now
  | answer | overhear | wait | lapse | renew => simp
  | stop => simp [Joining.isStopped] at running

theorem Knows.operate (knows : Knows history joining)
    (operated : joining.operate operation = .ok (answer, after)) :
    Knows (history ++ [⟨joining, operation, answer, after⟩]) after := by
  intro running seed
  have turns := turns_of_operate operated
  have runningBefore : joining.isStopped = false := by
    rw [← Bool.not_eq_true]
    intro stopped
    rw [turns.isStopped stopped] at running
    cases running
  rw [turns.contains_iff running, knows runningBefore, turns.settings.1, requested_append,
    requested_singleton]
  tauto

theorem Runs.knows (run : Runs start history joining) (unseeded : start.seeds = SortedMap.empty) :
    Knows history joining := by
  induction run with
  | start =>
      intro _ seed
      simp [unseeded, Requested]
  | operate _ operated knows => exact knows.operate operated

/-! ## Milestones -/

/-- What is decided about attempts: nothing is pending any more, an attempt begins by
a request, is given up, begins again, and the loop is stopped. -/
inductive Milestone where
  | rested
  | opened (moment : Nat)
  | lapsed (moment : Nat)
  | renewed (moment : Nat)
  | stopped
  deriving DecidableEq, Repr

/-- The milestone that an operation is, by its answer.  A request that is answered
with seeds to contact opens an attempt only if none was pending. -/
def Occurrence.milestone? (occurrence : Occurrence) : Option Milestone :=
  match occurrence.operation, occurrence.answer with
  | .join _ now, .started (.contact _) =>
      if occurrence.before.isPending then none else some (.opened now)
  | .respond, .completed true => some .rested
  | .check now, .stepped (some (.retryingAt _)) => some (.lapsed now)
  | .check now, .stepped (some (.contact _)) => some (.renewed now)
  | .stop, _ => some .stopped
  | _, _ => none

/-- The loop becomes pending. -/
def Occurrence.Opens (occurrence : Occurrence) : Prop :=
  ∃ moment, occurrence.milestone? = some (.opened moment)

def Occurrence.Renews (occurrence : Occurrence) : Prop :=
  ∃ moment, occurrence.milestone? = some (.renewed moment)

def Occurrence.Ends (occurrence : Occurrence) : Prop :=
  occurrence.milestone? = some .rested ∨ occurrence.milestone? = some .stopped

/-! ## What is in flight -/

/-- The loop became pending by an opening and has been so ever since. -/
structure Pends (history earlier : List Occurrence) (opening : Occurrence)
    (later : List Occurrence) : Prop where
  split : history = earlier ++ opening :: later
  opens : opening.Opens
  unended : ∀ occurrence ∈ later, ¬ occurrence.Ends

/-- A seed was asked for before the loop became pending, not by the request that
opened the attempt, and the attempt was not renewed. -/
def Overlooked (earlier : List Occurrence) (opening : Occurrence) (later : List Occurrence)
    (seed : SocketAddress) : Prop :=
  Requested earlier seed ∧ seed ∉ opening.answer.named ∧ ∀ occurrence ∈ later, ¬ occurrence.Renews

/-- Of the seeds that the loop knows, those that were not overlooked have been
contacted since it became pending. -/
def Contacted (history : List Occurrence) (joining : Joining) : Prop :=
  joining.isPending = true → ∃ earlier opening later, Pends history earlier opening later ∧
    ∀ seed, joining.seeds.contains seed = true →
      (Named (opening :: later) seed ↔ ¬ Overlooked earlier opening later seed)

theorem Pends.append (pends : Pends history earlier opening later)
    (unended : ¬ occurrence.Ends) :
    Pends (history ++ [occurrence]) earlier opening (later ++ [occurrence]) where
  split := by simp [pends.split]
  opens := pends.opens
  unended other among := by
    rcases List.mem_append.mp among with before | last
    · exact pends.unended other before
    · rw [List.mem_singleton.mp last]
      exact unended

private theorem overlooked_append_iff (unrenewed : ¬ occurrence.Renews) :
    Overlooked earlier opening (later ++ [occurrence]) seed ↔
      Overlooked earlier opening later seed := by
  unfold Overlooked
  simp only [List.mem_append, List.mem_singleton]
  constructor
  · rintro ⟨requested, unnamed, never⟩
    exact ⟨requested, unnamed, fun other among => never other (Or.inl among)⟩
  · rintro ⟨requested, unnamed, never⟩
    refine ⟨requested, unnamed, ?_⟩
    rintro other (among | rfl)
    · exact never other among
    · exact unrenewed

private theorem not_overlooked_of_renews (renews : occurrence.Renews) :
    ¬ Overlooked earlier opening (later ++ [occurrence]) seed := by
  rintro ⟨_, _, never⟩
  exact never occurrence (List.mem_append_right _ (List.mem_singleton_self _)) renews

/-- Whatever neither ends the attempt nor renews it keeps what is in flight, if it
contacts just the seeds that become known. -/
theorem Contacted.carry (contacted : Contacted history joining) (knows : Knows history joining)
    (knowsAfter : Knows (history ++ [occurrence]) after) (pending : joining.isPending = true)
    (unended : ¬ occurrence.Ends) (unrenewed : ¬ occurrence.Renews)
    (ownSame : after.own = joining.own)
    (named : ∀ seed, after.seeds.contains seed = true →
      (seed ∈ occurrence.answer.named ↔ joining.seeds.contains seed = false)) :
    Contacted (history ++ [occurrence]) after := by
  intro pendingAfter
  obtain ⟨earlier, opening, later, pends, accounted⟩ := contacted pending
  refine ⟨earlier, opening, later ++ [occurrence], pends.append unended, fun seed known => ?_⟩
  rw [← List.cons_append, named_append, named_singleton, overlooked_append_iff unrenewed,
    named seed known]
  cases knownBefore : joining.seeds.contains seed with
  | true => simpa using accounted seed knownBefore
  | false =>
      -- A seed that becomes known was never asked for, so it is not overlooked.
      have other := ((knowsAfter (isStopped_of_isPending pendingAfter) seed).mp known).1
      rw [ownSame] at other
      have unrequested : ¬ Requested earlier seed := by
        intro requested
        have inHistory : Requested history seed := by
          rw [pends.split]
          exact requested_append.mpr (Or.inl requested)
        have was :=
          (knows (isStopped_of_isPending pending) seed).mpr ⟨other, inHistory⟩
        rw [knownBefore] at was
        cases was
      simp [Overlooked, unrequested]

private theorem mem_fresh_iff_unknown (known : (joining.heard seeds).seeds.contains seed = true) :
    seed ∈ joining.fresh seeds ↔ joining.seeds.contains seed = false := by
  rw [mem_fresh_iff]
  constructor
  · exact And.right
  · intro unknown
    refine ⟨?_, unknown⟩
    rcases contains_heard.mp known with before | asked
    · rw [unknown] at before
      cases before
    · exact asked

theorem Contacted.open (knows : Knows history joining) (running : joining.isStopped = false)
    (idle : joining.isPending = false) :
    Contacted
      (history ++
        [⟨joining, .join seeds now, .started (.contact (joining.remote seeds)), after⟩])
      { joining.heard seeds with phase := .attempting (now + joining.timeout) } := by
  intro _
  refine ⟨history, _, [], ⟨rfl, ⟨now, ?_⟩, by simp⟩, fun seed known => ?_⟩
  · simp [Occurrence.milestone?, idle]
  rw [named_singleton]
  simp only [Overlooked, Answer.named, List.not_mem_nil, false_imp_iff, implies_true, and_true]
  constructor
  · rintro asked ⟨_, unasked⟩
    exact unasked asked
  · intro heeded
    by_contra unasked
    apply heeded
    refine ⟨?_, unasked⟩
    rcases contains_heard.mp known with before | asked
    · exact ((knows running seed).mp before).2
    · exact absurd (mem_remote_iff.mpr asked) unasked

theorem Contacted.operate (contacted : Contacted history joining)
    (knows : Knows history joining)
    (operated : joining.operate operation = .ok (answer, after)) :
    Contacted (history ++ [⟨joining, operation, answer, after⟩]) after := by
  have knowsAfter := knows.operate operated
  cases turns_of_operate operated with
  | refuse stopped =>
      intro pending
      simp [isPending, stopped] at pending
  | @share seeds now pending known =>
      refine contacted.carry knows knowsAfter pending ?_ ?_ rfl fun seed heard => ?_
      · simp [Occurrence.Ends, Occurrence.milestone?]
      · simp [Occurrence.Renews, Occurrence.milestone?]
      · rw [← mem_fresh_iff_unknown heard, known]
        rfl
  | @add seeds now pending unknown =>
      refine contacted.carry knows knowsAfter pending ?_ ?_ rfl fun seed heard => ?_
      · simp [Occurrence.Ends, Occurrence.milestone?, pending]
      · simp [Occurrence.Renews, Occurrence.milestone?, pending]
      · exact mem_fresh_iff_unknown heard
  | finish running idle alone =>
      intro pending
      rw [isPending_heard, idle] at pending
      cases pending
  | begin running idle remote => exact Contacted.open knows running idle
  | answer pending =>
      intro pendingAfter
      simp [isPending] at pendingAfter
  | overhear idle =>
      intro pending
      rw [idle] at pending
      cases pending
  | wait =>
      intro pending
      refine contacted.carry knows knowsAfter pending ?_ ?_ rfl (fun seed known => ?_) pending
      · simp [Occurrence.Ends, Occurrence.milestone?]
      · simp [Occurrence.Renews, Occurrence.milestone?]
      · simp [Answer.named, known]
  | @lapse now deadline attempting due =>
      have pending : joining.isPending = true :=
        isPending_eq_true_iff.mpr (Or.inl ⟨deadline, attempting⟩)
      refine contacted.carry knows knowsAfter pending ?_ ?_ rfl fun seed known => ?_
      · simp [Occurrence.Ends, Occurrence.milestone?]
      · simp [Occurrence.Renews, Occurrence.milestone?]
      · have same : joining.seeds.contains seed = true := known
        simp [Answer.named, same]
  | @renew now retryAt waiting due =>
      intro _
      have pending : joining.isPending = true :=
        isPending_eq_true_iff.mpr (Or.inr ⟨retryAt, waiting⟩)
      obtain ⟨earlier, opening, later, pends, _⟩ := contacted pending
      refine ⟨earlier, opening, later ++ [_], pends.append ?_, fun seed known => ?_⟩
      · simp [Occurrence.Ends, Occurrence.milestone?]
      · have renewed : seed ∈ joining.seeds.keys := SortedMap.mem_keys_iff.mpr known
        rw [← List.cons_append, named_append, named_singleton]
        exact iff_of_true (Or.inr renewed) (not_overlooked_of_renews ⟨now, rfl⟩)
  | stop =>
      intro pending
      simp [isPending] at pending

theorem Runs.contacted (run : Runs start history joining)
    (unseeded : start.seeds = SortedMap.empty) (idle : start.isPending = false) :
    Contacted history joining := by
  induction run with
  | start =>
      intro pending
      rw [idle] at pending
      cases pending
  | operate run operated contacted => exact contacted.operate (run.knows unseeded) operated

/-- A request coalesces exactly if the loop is pending and every seed that it names,
the own address apart, was asked for before.  Such a seed has been contacted since
the loop became pending, unless it was overlooked: it was asked for earlier than
that, not by the request that opened the attempt, and there was no retry yet. -/
theorem coalesced_in_flight {own : SocketAddress} {options : Options}
    (run : Runs (new own options) history joining) (seeds : List SocketAddress) (now : Nat) :
    ((∃ after, joining.join seeds now = .ok (.coalesced, after)) ↔
        joining.isPending = true ∧ ∀ seed ∈ seeds, seed ≠ own → Requested history seed) ∧
      (joining.isPending = true →
        ∃ earlier opening later, Pends history earlier opening later ∧
          ∀ seed, seed ≠ own → Requested history seed →
            (Named (opening :: later) seed ↔ ¬ Overlooked earlier opening later seed)) := by
  have ownSame : joining.own = own := run.settings.1
  have knows := run.knows rfl
  constructor
  · constructor
    · rintro ⟨after, joined⟩
      have turns := turns_of_join joined
      cases turns with
      | share pending known =>
          refine ⟨pending, fun seed asked other => ?_⟩
          have heard : (joining.heard seeds).seeds.contains seed = true :=
            contains_heard.mpr (Or.inr ⟨asked, ownSame ▸ other⟩)
          have before : joining.seeds.contains seed = true := by
            rw [← Bool.not_eq_false, ← mem_fresh_iff_unknown heard, known]
            exact List.not_mem_nil
          exact ((knows (isStopped_of_isPending pending) seed).mp before).2
    · rintro ⟨pending, requested⟩
      have known : joining.fresh seeds = [] := by
        rw [List.eq_nil_iff_forall_not_mem]
        intro seed among
        obtain ⟨⟨asked, other⟩, unknown⟩ := mem_fresh_iff.mp among
        have before :=
          (knows (isStopped_of_isPending pending) seed).mpr
            ⟨other, requested seed asked (ownSame ▸ other)⟩
        rw [unknown] at before
        cases before
      exact ⟨joining.heard seeds, by rw [join_of_fresh pending, if_pos known]⟩
  · intro pending
    obtain ⟨earlier, opening, later, pends, accounted⟩ := run.contacted rfl rfl pending
    refine ⟨earlier, opening, later, pends, fun seed other requested => accounted seed ?_⟩
    exact (knows (isStopped_of_isPending pending) seed).mpr ⟨ownSame ▸ other, requested⟩

/-! ## A seed that is passed over -/

def home : SocketAddress :=
  ⟨.v4 0x7f000001, 7000, 0⟩

def firstSeed : SocketAddress :=
  ⟨.v4 0x7f000001, 7001, 0⟩

def secondSeed : SocketAddress :=
  ⟨.v4 0x7f000001, 7002, 0⟩

def seeking : Joining :=
  { new home {} with seeds := SortedSet.ofList [firstSeed], phase := .attempting 5000 }

def seekingAgain : Joining :=
  { new home {} with
    seeds := SortedSet.ofList [firstSeed, secondSeed]
    phase := .attempting 5010 }

def answeredOnce : List Occurrence :=
  [⟨new home {}, .join [firstSeed] 0, .started (.contact [firstSeed]), seeking⟩,
    ⟨seeking, .respond, .completed true, { seeking with phase := .joined }⟩]

def reopening : Occurrence :=
  ⟨{ seeking with phase := .joined }, .join [secondSeed] 10, .started (.contact [secondSeed]),
    seekingAgain⟩

private theorem runs_seekingAgain : Runs (new home {}) (answeredOnce ++ [reopening]) seekingAgain :=
  ((Runs.start.operate rfl).operate rfl).operate rfl

private theorem requested_answeredOnce : Requested answeredOnce firstSeed :=
  ⟨_, List.mem_cons_self, [firstSeed], 0, rfl, List.mem_cons_self⟩

private theorem pends_reopening :
    Pends (answeredOnce ++ [reopening]) answeredOnce reopening [] where
  split := rfl
  opens := ⟨10, rfl⟩
  unended := by simp

theorem coalesced_in_flight_reopened :
    Runs (new home {}) (answeredOnce ++ [reopening]) seekingAgain ∧
      (∃ after, seekingAgain.join [home, firstSeed, secondSeed] 20 = .ok (.coalesced, after)) ∧
        ∃ earlier opening later, Pends (answeredOnce ++ [reopening]) earlier opening later ∧
          ∀ seed, seed ≠ home → Requested (answeredOnce ++ [reopening]) seed →
            (Named (opening :: later) seed ↔ ¬ Overlooked earlier opening later seed) := by
  obtain ⟨coalesces, inFlight⟩ :=
    coalesced_in_flight runs_seekingAgain [home, firstSeed, secondSeed] 20
  refine ⟨runs_seekingAgain, coalesces.mpr ⟨rfl, ?_⟩, inFlight rfl⟩
  intro seed asked other
  simp only [List.mem_cons, List.not_mem_nil, or_false] at asked
  rcases asked with rfl | rfl | rfl
  · exact absurd rfl other
  · exact requested_append.mpr (Or.inl requested_answeredOnce)
  · exact
      requested_append.mpr
        (Or.inr (requested_singleton.mpr ⟨[secondSeed], 10, rfl, List.mem_cons_self⟩))

/-- A request for the first seed shares the attempt that went to the second alone. -/
theorem coalesced_out_of_flight :
    ∃ after,
      Runs (new home {}) (answeredOnce ++ [reopening]) seekingAgain ∧
        seekingAgain.join [firstSeed] 20 = .ok (.coalesced, after) ∧ firstSeed ≠ home ∧
          Pends (answeredOnce ++ [reopening]) answeredOnce reopening [] ∧
            ¬ Named [reopening] firstSeed := by
  refine ⟨_, runs_seekingAgain, rfl, by decide, pends_reopening, ?_⟩
  rw [named_singleton]
  decide

end Joining

end Roster
