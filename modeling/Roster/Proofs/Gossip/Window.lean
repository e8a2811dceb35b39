import Mathlib.Data.Finset.Card
import Roster.Proofs.Gossip.Recall

/-!
# How long an identity is known

An offered item counts as new exactly if its identity is none of the last 4096 that
were accepted, be it of other hosts or of the host itself.  What has become of the
items in the queue meanwhile makes no difference, and an identity that is offered
again does not move up.  So at least 4096 others are accepted before one is accepted
for a second time.

The memory may as well be kept as a set to look up in, beside a line of the
identities in their order.
-/

namespace Roster

namespace GossipQueue

variable {queue after : GossipQueue} {operation : Operation} {origin : ReplicaId}
  {history : List Occurrence} {id : GossipId} {identities front between rest : List GossipId}

/-! ## What was accepted -/

/-- The identity that an operation accepts: the one that a new item of the host is
given, or that of an offered item if the answer is that it is new. -/
def Occurrence.accepted? (occurrence : Occurrence) : Option GossipId :=
  match occurrence.operation with
  | .enqueue payload => (occurrence.before.enqueue payload).toOption.map (·.1)
  | .offer gossip sender =>
      if (occurrence.before.offer gossip sender).1 then some gossip.id else none
  | _ => none

def acceptances (history : List Occurrence) : List GossipId :=
  history.filterMap Occurrence.accepted?

private theorem acceptances_append (earlier later : List Occurrence) :
    acceptances (earlier ++ later) = acceptances earlier ++ acceptances later :=
  List.filterMap_append

private theorem acceptances_cons_of_accepted {occurrence : Occurrence}
    (accepts : occurrence.accepted? = some id) (later : List Occurrence) :
    acceptances (occurrence :: later) = id :: acceptances later :=
  List.filterMap_cons_some accepts

private theorem acceptances_append_singleton (history : List Occurrence) (last : Occurrence) :
    acceptances (history ++ [last]) = acceptances history ++ last.accepted?.toList := by
  rw [acceptances_append]
  cases accepts : last.accepted? with
  | none => simp [acceptances, accepts]
  | some id => simp [acceptances, accepts]

/-- What is accepted is what is brought in. -/
private theorem accepted?_eq_arrival? (operated : queue.operate operation = .ok after) :
    Occurrence.accepted? ⟨queue, operation, after⟩ =
      Occurrence.arrival? ⟨queue, operation, after⟩ := by
  cases operation with
  | enqueue payload =>
      obtain ⟨⟨id, result⟩, queued, same⟩ := Attempt.map_eq_ok operated
      obtain ⟨given, _⟩ := eq_of_enqueue queued
      simp only [Occurrence.accepted?, Occurrence.arrival?, entrant?, queued, Except.toOption,
        Option.map_some, given]
  | offer gossip sender =>
      by_cases seen : gossip.id ∈ queue.recent
      · simp [Occurrence.accepted?, Occurrence.arrival?, entrant?, offer_of_recent seen, seen]
      · simp [Occurrence.accepted?, Occurrence.arrival?, entrant?, offer_of_new seen, seen]
  | _ => rfl

private theorem Runs.acceptances_eq (run : Runs origin history queue) :
    acceptances history = arrivals history := by
  induction run with
  | start => rfl
  | @operate history before after operation _ operated inductionHypothesis =>
      rw [acceptances_append_singleton, arrivals_append_singleton, inductionHypothesis,
        accepted?_eq_arrival? operated]

/-! ## Windows of the acceptances -/

/-- Spaced identities do not repeat among one more than are remembered. -/
private theorem Spaced.nodup_window (front rest : List GossipId) {window : List GossipId}
    (spaced : Spaced (front ++ window ++ rest)) (short : window.length ≤ memory + 1) :
    window.Nodup := by
  rw [List.nodup_iff_getElem?_ne_getElem?]
  intro first second before inside same
  have found : ∀ place, place < window.length →
      (front ++ window ++ rest)[front.length + place]? = window[place]? := by
    intro place within
    rw [List.append_assoc, List.getElem?_append_right (Nat.le_add_right _ _),
      Nat.add_sub_cancel_left, List.getElem?_append_left within]
  have atSecond := found second inside
  rw [List.getElem?_eq_getElem inside] at atSecond same
  have atFirst := found first (Nat.lt_trans before inside)
  rw [same] at atFirst
  have far := spaced _ _ _ (Nat.add_lt_add_left before front.length) atFirst atSecond
  omega

private theorem Spaced.nodup_last (spaced : Spaced identities) :
    (identities.reverse.take memory).Nodup := by
  rw [List.take_reverse, List.nodup_reverse]
  apply Spaced.nodup_window (identities.take (identities.length - memory)) []
  · rwa [List.append_nil, List.take_append_drop]
  · rw [List.length_drop]
    omega

/-- As many others as are remembered come between an identity and the next time that
it comes. -/
private theorem Spaced.others_between (spaced : Spaced (front ++ id :: between ++ id :: rest)) :
    memory ≤ (between.toFinset.erase id).card := by
  have second : (front ++ id :: between ++ id :: rest)[front.length + (between.length + 1)]? =
      some id := by
    rw [List.getElem?_append_right (by simp)]
    simp
  have far := spaced front.length _ id (by omega) (by simp) second
  -- The identity and what follows it at once fit into one window.
  have window : (id :: between.take memory).Nodup := by
    apply Spaced.nodup_window front (between.drop memory ++ id :: rest)
    · rwa [List.append_assoc, List.cons_append, ← List.append_assoc (between.take memory),
        List.take_append_drop, ← List.cons_append, ← List.append_assoc]
    · rw [List.length_cons, List.length_take]
      omega
  obtain ⟨absent, nodup⟩ := List.nodup_cons.mp window
  have count : (between.take memory).toFinset.card = memory := by
    rw [List.toFinset_card_of_nodup nodup, List.length_take]
    omega
  rw [← count]
  apply Finset.card_le_card
  intro other among
  rw [List.mem_toFinset] at among
  rw [Finset.mem_erase, List.mem_toFinset]
  exact ⟨fun same => absent (same ▸ among), List.mem_of_mem_take among⟩

private theorem mem_last_of_few (few : rest.length < memory) (front : List GossipId)
    (id : GossipId) :
    id ∈ (front ++ id :: rest).reverse.take memory := by
  have split : (front ++ id :: rest).reverse = rest.reverse ++ id :: front.reverse := by
    simp
  obtain ⟨room, some⟩ : ∃ room, memory - rest.reverse.length = room + 1 :=
    ⟨memory - rest.length - 1, by rw [List.length_reverse]; omega⟩
  rw [split, List.take_append, some, List.take_succ_cons]
  exact List.mem_append_right _ List.mem_cons_self

/-! ## A set beside a line -/

/-- Identities to look up in, and the same in the order in which they came. -/
structure Recollection where
  known : Finset GossipId := ∅
  line : List GossipId := []

namespace Recollection

/-- If there are more than can be remembered, the oldest leaves both. -/
def trim (recollection : Recollection) : Recollection :=
  if memory < recollection.line.length then
    { known := recollection.line.head?.elim recollection.known recollection.known.erase
      line := recollection.line.tail }
  else
    recollection

/-- An identity that is not known enters both. -/
def enter (recollection : Recollection) (id : GossipId) : Recollection :=
  if id ∈ recollection.known then
    recollection
  else
    { known := insert id recollection.known
      line := recollection.line ++ [id] : Recollection }.trim

/-- Set and line hold the same, each once, and that is what the queue remembers. -/
structure InStep (recollection : Recollection) (queue : GossipQueue) : Prop where
  known_eq : recollection.known = recollection.line.toFinset
  line_eq : recollection.line = queue.recent.reverse
  nodup : recollection.line.Nodup
  length_le : recollection.line.length ≤ memory

variable {recollection : Recollection}

private theorem line_trim (short : recollection.line.length ≤ memory + 1) :
    recollection.trim.line = recollection.line.drop (recollection.line.length - memory) := by
  unfold trim
  split
  · rename_i overfull
    have one : recollection.line.length - memory = 1 := by
      omega
    rw [one, List.drop_one]
  · rename_i fits
    rw [Nat.sub_eq_zero_of_le (Nat.le_of_not_lt fits), List.drop_zero]

private theorem known_trim (same : recollection.known = recollection.line.toFinset)
    (nodup : recollection.line.Nodup) :
    recollection.trim.known = recollection.trim.line.toFinset := by
  unfold trim
  split
  · rw [same]
    cases line : recollection.line with
    | nil => rfl
    | cons oldest others =>
        rw [line] at nodup
        simp [(List.nodup_cons.mp nodup).1]
  · exact same

private theorem InStep.mem_known_iff (inStep : recollection.InStep queue) (id : GossipId) :
    id ∈ recollection.known ↔ id ∈ queue.recent := by
  rw [inStep.known_eq, inStep.line_eq, List.mem_toFinset, List.mem_reverse]

private theorem InStep.of_recent_eq (inStep : recollection.InStep queue)
    (same : after.recent = queue.recent) : recollection.InStep after where
  known_eq := inStep.known_eq
  line_eq := by rw [inStep.line_eq, same]
  nodup := inStep.nodup
  length_le := inStep.length_le

theorem InStep.enter (inStep : recollection.InStep queue) (id : GossipId) :
    (recollection.enter id).InStep (queue.remember id) := by
  by_cases present : id ∈ queue.recent
  · rw [Recollection.enter, if_pos ((inStep.mem_known_iff id).mpr present), remember,
      if_pos present]
    exact inStep
  have absent : id ∉ recollection.line := by
    rwa [inStep.line_eq, List.mem_reverse]
  have grown : (recollection.line ++ [id]).Nodup :=
    List.nodup_append.mpr
      ⟨inStep.nodup, List.nodup_singleton id, fun other member last is same =>
        absent (List.mem_singleton.mp is ▸ same ▸ member)⟩
  have entered : insert id recollection.known = (recollection.line ++ [id]).toFinset := by
    rw [List.toFinset_append, inStep.known_eq, Finset.union_comm]
    rfl
  have newest : recollection.line ++ [id] = (id :: queue.recent).reverse := by
    rw [List.reverse_cons, inStep.line_eq]
  have same : (id :: queue.recent).length = (recollection.line ++ [id]).length := by
    rw [newest, List.length_reverse]
  have count : (recollection.line ++ [id]).length ≤ memory + 1 := by
    have bounded := inStep.length_le
    rw [List.length_append, List.length_singleton]
    omega
  rw [Recollection.enter, if_neg (mt (inStep.mem_known_iff id).mp present)]
  constructor
  · exact known_trim entered grown
  · rw [line_trim count, recent_remember, if_neg present, List.reverse_take, ← newest, same]
  · rw [line_trim count]
    exact grown.sublist (List.drop_sublist _ _)
  · rw [line_trim count, List.length_drop]
    omega

end Recollection

def recollect (history : List Occurrence) : Recollection :=
  (acceptances history).foldl Recollection.enter {}

theorem Runs.inStep (run : Runs origin history queue) : (recollect history).InStep queue := by
  induction run with
  | start => exact ⟨rfl, rfl, List.nodup_nil, Nat.zero_le memory⟩
  | @operate history before after operation _ operated inductionHypothesis =>
      rw [recollect, acceptances_append_singleton, List.foldl_append,
        accepted?_eq_arrival? operated]
      cases enters : before.entrant? operation with
      | none =>
          rw [Occurrence.arrival?, enters]
          exact inductionHypothesis.of_recent_eq (rests_of_nothing enters operated).recent_eq
      | some item =>
          rw [Occurrence.arrival?, enters]
          exact
            (inductionHypothesis.enter item.gossip.id).of_recent_eq
              (takesIn_of_entrant enters operated).recent_eq

/-! ## New or known -/

/-- In every run in which nobody else uses the numbers that the queue has yet to give,
an offered item counts as known exactly if its identity is one of the last 4096 that
were accepted, which all differ.  From one acceptance of an identity to the next at
least 4096 others are accepted, and until so many were it is known, whatever has become
of its item.  A set and a line that all accepted identities enter hold just these. -/
theorem known_iff_accepted_lately (run : Runs origin history queue)
    (sincere : ∀ occurrence ∈ history, occurrence.Sincere) :
    ((acceptances history).reverse.take 4096).Nodup ∧
      (∀ gossip sender,
        (queue.offer gossip sender).1 = false ↔
          gossip.id ∈ (acceptances history).reverse.take 4096) ∧
      (∀ earlier first between second later id,
        history = earlier ++ first :: between ++ second :: later →
          first.accepted? = some id → second.accepted? = some id →
            4096 ≤ ((acceptances between).toFinset.erase id).card) ∧
      (∀ earlier first later gossip sender,
        history = earlier ++ first :: later → first.accepted? = some gossip.id →
          (acceptances later).length < 4096 → (queue.offer gossip sender).1 = false) ∧
      (recollect history).known = ((acceptances history).reverse.take 4096).toFinset ∧
        (recollect history).line = ((acceptances history).reverse.take 4096).reverse := by
  obtain ⟨recalls, spaced⟩ := run.recalls sincere
  have remembered : queue.recent = (acceptances history).reverse.take memory := by
    rw [run.acceptances_eq, recalls.recent_eq]
  rw [← run.acceptances_eq] at spaced
  have known (gossip : Gossip) (sender : SocketAddress) :
      (queue.offer gossip sender).1 = false ↔
        gossip.id ∈ (acceptances history).reverse.take memory := by
    rw [← remembered, ← Bool.not_eq_true, fresh_iff, not_not]
  have inStep := run.inStep
  have line := inStep.line_eq
  rw [remembered] at line
  refine ⟨spaced.nodup_last, known, ?_, ?_, ?_, line⟩
  · rintro earlier first between second later id rfl acceptsFirst acceptsSecond
    rw [acceptances_append, acceptances_append, acceptances_cons_of_accepted acceptsFirst,
      acceptances_cons_of_accepted acceptsSecond] at spaced
    exact spaced.others_between
  · rintro earlier first later gossip sender rfl accepts few
    rw [known, acceptances_append, acceptances_cons_of_accepted accepts]
    exact mem_last_of_few few _ _
  · rw [inStep.known_eq, line, List.toFinset_reverse, memory]

/-- The flooded queue has dropped its first rumor. -/
private theorem runs_flooded_discard :
    ∃ history,
      Runs ⟨1⟩ history (flooded.discard (rumor 1).id) ∧
        ∀ occurrence ∈ history, occurrence.Sincere := by
  obtain ⟨history, run, operations⟩ := runs_flooded
  have run := run.discard (rumor 1).id
  refine ⟨_, run, run.sincere ?_⟩
  intro gossip sender offered
  rw [List.map_append, operations] at offered
  rcases List.mem_append.mp offered with first | discarded
  · obtain ⟨other, among, same⟩ := List.mem_map.mp first
    cases same
    rcases List.mem_cons.mp among with rfl | rumored
    · decide
    · obtain ⟨number, _, rfl⟩ := List.mem_map.mp rumored
      rw [origin_rumor]
      decide
  · cases List.mem_singleton.mp discarded

/-- After 4096 rumors, the first of them is still known although it was dropped, and the
item before it is new again although it is queued. -/
theorem known_iff_accepted_lately_flooded :
    ∃ history,
      Runs ⟨1⟩ history (flooded.discard (rumor 1).id) ∧
        (∀ occurrence ∈ history, occurrence.Sincere) ∧
          (rumor 1).id ∈ (acceptances history).reverse.take 4096 ∧
            visitor.id ∉ (acceptances history).reverse.take 4096 := by
  obtain ⟨history, run, sincere⟩ := runs_flooded_discard
  obtain ⟨_, known, _⟩ := known_iff_accepted_lately run sincere
  refine ⟨history, run, sincere, ?_, ?_⟩
  · rw [← known (rumor 1) stranger, ← Bool.not_eq_true, fresh_iff, not_not, recent_discard,
      flooded_eq.2, List.mem_reverse]
    exact List.mem_map_of_mem (rumor_mem_rumors (by decide))
  · rw [← known visitor stranger, Bool.not_eq_false, fresh_iff]
    exact fresh_flooded

end GossipQueue

end Roster
