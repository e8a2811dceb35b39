import Roster.Proofs.Joining
import Roster.Proofs.Node.Conduct
import Roster.Proofs.Node.Newcomer

/-!
# When a join is answered

Joins wait in the node until the join loop is over.  They are answered all at a
time: cancelled when the node leaves, and done when it takes in an exchange of
the join kind while the loop is pending.  Which address that came from, and what
became of its batch, makes no difference.
-/

namespace Roster

namespace Node

open Activity Relation

variable {node after : Node}

/-! ## What leaves the joins alone -/

/-- The join loop and the joins that wait are as they were. -/
structure SameJoins (before after : Node) : Prop where
  joining_eq : after.joining = before.joining
  waiting_eq : after.waiting = before.waiting

instance : IsPreorder Node SameJoins where
  refl _ := ⟨rfl, rfl⟩
  trans _ _ _ first second :=
    ⟨second.joining_eq.trans first.joining_eq, second.waiting_eq.trans first.waiting_eq⟩

theorem SameJoins.admits : Admits SameJoins where
  broadcast _ := ⟨rfl, rfl⟩
  send _ _ _ _ := ⟨rfl, rfl⟩
  rename _ _ := ⟨rfl, rfl⟩
  ask _ _ := ⟨rfl, rfl⟩
  other _ _ _ _ _ _ := ⟨rfl, rfl⟩
  tune _ := ⟨rfl, rfl⟩
  change _ _ := ⟨rfl, rfl⟩
  switch _ _ := ⟨rfl, rfl⟩

/-! ## At the reply -/

/-- While a join is pending, an exchange of the join kind is taken in. -/
def JoinedBy (node : Node) (occasion : Occasion) : Prop :=
  node.joining.isPending = true ∧
    ∃ datagram inbound response request,
      occasion = .event (.datagram datagram) ∧
        (node.courier.accept datagram).1 = some inbound ∧
          inbound.envelope.message = .exchange .join response request

/-- What a reply tells of the occasion. -/
inductive Replies (node after : Node) : Occasion → Reply → Prop
  | silent {occasion : Occasion} (nobody : ¬ node.JoinedBy occasion) :
      Replies node after occasion .none
  | called (ticket : Ticket) (command : Command) (given : Answer) :
      Replies node after (.event (.command ticket command)) (.one ticket given)
  | joined {occasion : Occasion} (joined : node.JoinedBy occasion)
      (waiting_eq : after.waiting = node.waiting) :
      Replies node after occasion (.waiting .done)
  | left {occasion : Occasion} (nobody : ¬ node.JoinedBy occasion) :
      Replies node after occasion (.waiting .cancelled)

theorem not_joinedBy {occasion : Occasion}
    (other : ∀ datagram, occasion ≠ .event (.datagram datagram)) : ¬ node.JoinedBy occasion := by
  rintro ⟨_, datagram, _, _, _, here, _⟩
  exact other datagram here

private theorem reply_handleTurn {moment : Moment} {sender : SocketAddress} {message : Message}
    {turn : Turn} (begun : (handleTurn moment sender message).run node = (.ok turn, after)) :
    (turn.reply = .none ∧
        ¬ (node.joining.isPending = true ∧
          ∃ response request, message = .exchange .join response request)) ∨
      (turn.reply = .waiting .done ∧ after.waiting = node.waiting ∧
        node.joining.isPending = true ∧
          ∃ response request, message = .exchange .join response request) := by
  cases message with
  | exchange kind response request =>
      cases kind with
      | join =>
          obtain ⟨_, merged, mergedOk, begun⟩ := run_bind_eq_ok begun
          have merging := Within.of_run (SameJoins.admits.within_merge moment response) mergedOk
          rw [run_get_bind] at begun
          have completed : merged.joining.respond.1 = node.joining.isPending := by
            rw [Joining.fst_respond, merging.joining_eq]
          cases answered : merged.joining.respond with
          | mk complete joining =>
              rw [answered] at begun completed
              obtain ⟨_, responded, changed, begun⟩ := run_bind_eq_ok begun
              have responding : responded.waiting = node.waiting := by
                cases changed
                exact merging.waiting_eq
              split at begun
              · rename_i pending
                obtain ⟨_, settled, settledOk, begun⟩ := run_bind_eq_ok begun
                cases begun
                have settling := Within.of_run SameJoins.admits.within_settle settledOk
                refine Or.inr ⟨rfl, settling.waiting_eq.trans responding, ?_⟩
                exact ⟨completed.symm.trans pending, response, request, rfl⟩
              · rename_i idle
                cases begun
                exact Or.inl ⟨rfl, fun joined => idle (completed.trans joined.1)⟩
      | heal =>
          cases begun
          exact Or.inl ⟨rfl, by simp⟩
  | _ =>
      cases begun
      exact Or.inl ⟨rfl, by simp⟩

private theorem replies_arriveTurn {moment : Moment} {datagram : Datagram} {turn : Turn}
    (begun : (arriveTurn moment datagram).run node = (.ok turn, after)) :
    Replies node after (.event (.datagram datagram)) turn.reply := by
  unfold arriveTurn at begun
  rw [run_get_bind] at begun
  cases accepted : node.courier.accept datagram with
  | mk taken courier =>
      rw [accepted] at begun
      obtain ⟨_, started, changed, begun⟩ := run_bind_eq_ok begun
      cases changed
      cases taken with
      | none =>
          cases begun
          refine .silent ?_
          rintro ⟨_, _, inbound, _, _, here, taken, _⟩
          cases here
          rw [accepted] at taken
          cases taken
      | some inbound =>
          obtain ⟨_, observed, observedOk, begun⟩ := run_bind_eq_ok begun
          obtain ⟨_, heeded, heededOk, begun⟩ := run_bind_eq_ok begun
          obtain ⟨handled, _, handledOk, begun⟩ := run_bind_eq_ok begun
          cases begun
          have observing := Within.of_run (SameJoins.admits.within_observe _ moment.now) observedOk
          have harmless (payload : Payload) : Within SameJoins (heed moment payload) :=
            SameJoins.admits.within_heed moment payload fun _ => ⟨rfl, rfl⟩
          have heeding := Within.of_run (within_forM harmless inbound.fresh) heededOk
          have sameJoining : heeded.joining = node.joining :=
            heeding.joining_eq.trans observing.joining_eq
          have sameWaiting : heeded.waiting = node.waiting :=
            heeding.waiting_eq.trans observing.waiting_eq
          rcases reply_handleTurn handledOk with
            ⟨silent, nobody⟩ | ⟨done, waiting, pending, response, request, message⟩
          · simp only [silent]
            refine .silent ?_
            rintro ⟨pending, _, other, response, request, here, taken, message⟩
            cases here
            rw [accepted] at taken
            cases taken
            exact nobody ⟨by rw [sameJoining, pending], response, request, message⟩
          · simp only [done]
            rw [sameJoining] at pending
            refine .joined ⟨pending, datagram, inbound, response, request, rfl, ?_, message⟩ ?_
            · rw [accepted]
            · exact waiting.trans sameWaiting

/-- A command other than to close is answered alone, if at all. -/
def Turn.Concerns (ticket : Ticket) (turn : Turn) : Prop :=
  turn.reply = .none ∨ ∃ given, turn.reply = .one ticket given

private theorem concerns_joinTurn (ticket : Ticket) (seeds : List SocketAddress) (now : Nat) :
    Yields (Turn.Concerns ticket) (joinTurn ticket seeds now) := by
  refine yields_bind fun node => yields_bind fun started => yields_bind fun _ => ?_
  obtain ⟨start, joining⟩ := started
  cases start with
  | contact seeds => exact yields_pure (Or.inl rfl)
  | coalesced => exact yields_pure (Or.inl rfl)
  | complete => exact yields_pure (Or.inr ⟨.done, rfl⟩)
  | stopped => exact yields_pure (Or.inr ⟨.cancelled, rfl⟩)

private theorem concerns_changeHostingTurn (ticket : Ticket)
    (change : MemberList → Except MemberList.Fault Bool × MemberList) :
    Yields (Turn.Concerns ticket) (changeHostingTurn ticket change) := by
  refine yields_bind fun node => yields_bind fun _ => yields_bind fun _ => ?_
  split
  · exact yields_pure (Or.inr ⟨.done, rfl⟩)
  · exact yields_pure (Or.inr ⟨_, rfl⟩)

theorem Turn.Concerns.replies {ticket : Ticket} {command : Command} {turn : Turn}
    (concerns : turn.Concerns ticket) :
    Replies node after (.event (.command ticket command)) turn.reply := by
  rcases concerns with silent | ⟨given, one⟩
  · rw [silent]
    exact .silent (not_joinedBy nofun)
  · rw [one]
    exact .called ticket command given

private theorem replies_turn {moment : Moment} {occasion : Occasion} {turn : Turn}
    (begun : (Node.turn moment occasion).run node = (.ok turn, after)) :
    Replies node after occasion turn.reply := by
  cases occasion with
  | desertion =>
      cases begun
      exact .left (not_joinedBy nofun)
  | event event =>
      cases event with
      | datagram datagram => exact replies_arriveTurn begun
      | tick =>
          cases begun
          exact .silent (not_joinedBy nofun)
      | command ticket command =>
          cases command with
          | join seeds =>
              exact (concerns_joinTurn ticket seeds moment.now _ _ _ begun).replies
          | host agent =>
              exact (concerns_changeHostingTurn ticket (·.host agent) _ _ _ begun).replies
          | stopHosting agent =>
              exact (concerns_changeHostingTurn ticket (·.stopHosting agent) _ _ _ begun).replies
          | close =>
              cases begun
              exact .left (not_joinedBy nofun)

/-! ## Answers -/

/-- After the reply nobody is answered until the request to close is. -/
private theorem answers_finish {turn : Turn} (rest : Within Move turn.rest) :
    (turn.finish.run node).2.answers = (turn.reply.give.run node).2.answers := by
  have rested : ReflTransGen Carries (turn.reply.give.run node).2 (turn.finish.run node).2 :=
    steps_rest fun _ => carries_of_moves rest
  exact (step_of_steps rested).answers_eq

private theorem mem_answers_conclude {ticket : Ticket} {given : Answer} {occasion : Occasion}
    (others : ∀ command, occasion ≠ .event (.command ticket command)) :
    (ticket, given) ∈ (occasion.conclude.run node).2.answers ↔
      (ticket, given) ∈ node.answers := by
  unfold Occasion.conclude
  split
  · rename_i other
    have different : ticket ≠ other := fun same => others .close (by rw [same])
    change (ticket, given) ∈ node.answers ++ [(other, Answer.done)] ↔ _
    simp [different]
  · exact Iff.rfl

/-- A reply tells a join that waits that it is done exactly if the occasion is an
exchange of the join kind. -/
private theorem Replies.done_iff {ticket : Ticket} {occasion : Occasion} {reply : Reply}
    (replies : Replies node after occasion reply) (sameAnswers : after.answers = node.answers)
    (waits : ticket ∈ node.waiting) (unanswered : (ticket, .done) ∉ node.answers)
    (others : ∀ command, occasion ≠ .event (.command ticket command)) :
    (ticket, .done) ∈ (reply.give.run after).2.answers ↔ node.JoinedBy occasion := by
  cases replies with
  | silent nobody =>
      change (ticket, Answer.done) ∈ after.answers ↔ _
      rw [sameAnswers]
      exact iff_of_false unanswered nobody
  | called other command given =>
      have different : ticket ≠ other := fun same => others command (by rw [same])
      change (ticket, Answer.done) ∈ after.answers ++ [(other, given)] ↔ _
      rw [sameAnswers]
      exact iff_of_false (by simp [unanswered, different]) (not_joinedBy nofun)
  | joined joined sameWaiting =>
      change (ticket, Answer.done) ∈ after.answers ++ after.waiting.map (·, Answer.done) ↔ _
      rw [sameWaiting]
      refine iff_of_true (List.mem_append_right _ ?_) joined
      exact List.mem_map.mpr ⟨ticket, waits, rfl⟩
  | left nobody =>
      change (ticket, Answer.done) ∈ after.answers ++ after.waiting.map (·, Answer.cancelled) ↔ _
      rw [sameAnswers]
      exact iff_of_false (by simp [unanswered]) nobody

/-- What is told after a turn has begun is what is told at its reply. -/
private theorem mem_answers_act {ticket : Ticket} {given : Answer} {moment : Moment}
    {occasion : Occasion} {turn : Turn} {replying : Node}
    (begun : (Node.turn moment occasion).run node = (.ok turn, replying))
    (others : ∀ command, occasion ≠ .event (.command ticket command)) :
    (ticket, given) ∈ ((act moment occasion).run node).2.answers ↔
      (ticket, given) ∈ (turn.reply.give.run replying).2.answers := by
  have finished :
      (turn.finish.run replying).2.answers = (turn.reply.give.run replying).2.answers :=
    answers_finish (rest_turn moment occasion _ _ _ begun)
  rw [act_eq, run_bind_of_ok begun, ← finished]
  cases ended : turn.finish.run replying with
  | mk result last =>
      cases result with
      | ok _ =>
          rw [run_bind_of_ok ended]
          exact mem_answers_conclude others
      | error overflow => rw [run_bind_of_error ended]

/-- A join that waits is told that it is done only when the node takes in an
exchange of the join kind while the loop is pending, and then it is told so
whoever sent the exchange and whether or not its batch was refused. -/
theorem waiting_join_done_iff {ticket : Ticket} {moment : Moment} {occasion : Occasion}
    {outcome : Except Overflow Unit} (waits : ticket ∈ node.waiting)
    (unanswered : (ticket, .done) ∉ node.answers)
    (others : ∀ command, occasion ≠ .event (.command ticket command))
    (carried : (act moment occasion).run node = (outcome, after)) :
    ((ticket, .done) ∈ after.answers → node.JoinedBy occasion) ∧
      (outcome = .ok () → node.JoinedBy occasion → (ticket, .done) ∈ after.answers) := by
  cases begun : (Node.turn moment occasion).run node with
  | mk result replying =>
      have sameAnswers := (Within.of_run (carries_turn moment occasion) begun).answers_eq
      cases result with
      | error overflow =>
          rw [act_eq, run_bind_of_error begun] at carried
          cases carried
          rw [sameAnswers]
          exact ⟨fun told => absurd told unanswered, nofun⟩
      | ok turn =>
          have told :
              (ticket, Answer.done) ∈ ((act moment occasion).run node).2.answers ↔
                (ticket, Answer.done) ∈ (turn.reply.give.run replying).2.answers :=
            mem_answers_act begun others
          rw [carried] at told
          have replied :=
            told.trans ((replies_turn begun).done_iff sameAnswers waits unanswered others)
          exact ⟨replied.mp, fun _ => replied.mpr⟩

/-- What a node does before it tells whether a join is done. -/
def taking (moment : Moment) (inbound : Inbound) (response : Batch) : Activity Unit := do
  observe inbound.envelope.sender moment.now
  inbound.fresh.forM (heed moment)
  merge moment response

/-- A node that settles after it has taken in an exchange replies to it. -/
private theorem run_turn_of_exchange {moment : Moment} {datagram : Datagram} {inbound : Inbound}
    {courier : Courier} {response : Batch} {request : Digest} {middle : Node}
    (accepted : node.courier.accept datagram = (some inbound, courier))
    (message : inbound.envelope.message = .exchange .join response request)
    (taken : (taking moment inbound response).run { node with courier } = (.ok (), middle))
    (pending : middle.joining.isPending = true)
    (settled :
      settle.run { middle with joining := { middle.joining with phase := .joined } } =
        (.ok (), after)) :
    (Node.turn moment (.event (.datagram datagram))).run node =
      (.ok
          { reply := .waiting .done
            rest := do
              respond request datagram.sender
              settle },
        after) := by
  obtain ⟨_, observed, observedOk, taken⟩ := run_bind_eq_ok taken
  obtain ⟨_, heeded, heededOk, merged⟩ := run_bind_eq_ok taken
  have handled :
      (handleTurn moment datagram.sender inbound.envelope.message).run heeded =
        (.ok { reply := .waiting .done, rest := respond request datagram.sender }, after) := by
    rw [message, handleTurn, run_bind_of_ok merged, run_get_bind, Joining.respond, if_pos pending]
    exact run_bind_of_ok settled
  simp only [Node.turn, arriveTurn]
  rw [run_get_bind, accepted]
  refine (run_bind_of_ok observedOk).trans ?_
  exact (run_bind_of_ok heededOk).trans (run_bind_of_ok handled)

/-! ## A node that joins -/

def seed : SocketAddress :=
  ⟨.v4 0x0a000002, 2, 0⟩

def stranger : SocketAddress :=
  ⟨.v4 0x0a000009, 9, 0⟩

/-- A new node that has asked one seed; its first join waits. -/
def joiner : Node :=
  ((act dawn (.event (.command 0 (.join [seed])))).run newcomer).2

private theorem reachable_joiner : Reachable joiner := by
  refine .step dawn (.command 0 (.join [seed])) (.start new_newcomer) nofun (Prod.ext ?_ rfl)
  decide +kernel

def unreadable : Batch :=
  SortedMap.ofList [(membershipUri, [])]

def unsolicited : Datagram :=
  mail passerby (.exchange .join unreadable SortedMap.empty) []

def intrudedAt : Moment :=
  { now := 100, incarnation := 50 }

def intrusion : Inbound :=
  { envelope :=
      { env := "dev"
        sender := passerby
        message := .exchange .join unreadable SortedMap.empty }
    fresh := [] }

private theorem accept_unsolicited :
    joiner.courier.accept unsolicited = (some intrusion, joiner.courier) := by
  have decoded : Envelope.decode unsolicited.payload = .ok intrusion.envelope := by
    decide +kernel
  have relevant :
      ¬ (intrusion.envelope.env ≠ joiner.courier.env ∨
        intrusion.envelope.sender = joiner.courier.own) := by
    decide +kernel
  have unobserved : joiner.courier.observed = none := by
    decide +kernel
  have seen : joiner.courier.observe intrusion.envelope = joiner.courier := by
    rw [Courier.observe, unobserved, Option.map_none, ← unobserved]
  simp only [Courier.accept, decoded, if_neg relevant]
  exact Prod.ext rfl seen

private theorem unsolicited_ne_command (command : Command) :
    Occasion.event (.datagram unsolicited) ≠ .event (.command 0 command) := by
  intro same
  cases same

private theorem joinedBy_unsolicited : joiner.JoinedBy (.event (.datagram unsolicited)) := by
  refine ⟨by decide +kernel, unsolicited, intrusion, unreadable, SortedMap.empty, rfl, ?_, rfl⟩
  rw [accept_unsolicited]

/-- The node once it has taken that in, and what it settles as before it tells
that the join is done. -/
def intruded : Node :=
  ((taking intrudedAt intrusion unreadable).run joiner).2

def completing : Node :=
  { intruded with joining := { intruded.joining with phase := .joined } }

private theorem exists_turn_unsolicited :
    ∃ turn replying,
      (Node.turn intrudedAt (.event (.datagram unsolicited))).run joiner =
        (.ok turn, replying) := by
  have taken : (taking intrudedAt intrusion unreadable).run joiner = (.ok (), intruded) := by
    have done : ((taking intrudedAt intrusion unreadable).run joiner).1 = .ok () := by
      decide +kernel
    exact Prod.ext done rfl
  have frugal : completing.Frugal (0 + completing.list.outbox.length) :=
    { multiplier_le := by decide +kernel
      scaled_lt := by decide +kernel
      next_lt := by decide +kernel }
  obtain ⟨replying, settled, _⟩ := frugal.settle
  exact ⟨_, replying, run_turn_of_exchange accept_unsolicited rfl taken (by decide +kernel) settled⟩

theorem waiting_join_done_iff_unsolicited :
    0 ∈ joiner.waiting ∧ (0, Answer.done) ∉ joiner.answers ∧
      ∃ outcome after,
        (act intrudedAt (.event (.datagram unsolicited))).run joiner = (outcome, after) ∧
          (outcome = .ok () → (0, Answer.done) ∈ after.answers) := by
  have waits : 0 ∈ joiner.waiting := by
    decide +kernel
  have unanswered : (0, Answer.done) ∉ joiner.answers := by
    decide +kernel
  cases carried : (act intrudedAt (.event (.datagram unsolicited))).run joiner with
  | mk outcome after =>
      have told := (waiting_join_done_iff waits unanswered unsolicited_ne_command carried).2
      exact ⟨waits, unanswered, outcome, after, rfl, fun done => told done joinedBy_unsolicited⟩

/-- The stranger's exchange completes the join, though its batch is refused. -/
theorem waiting_join_done_by_stranger :
    Reachable joiner ∧ 0 ∈ joiner.waiting ∧ joiner.joining.seeds.contains stranger = false ∧
      (∃ list,
        joiner.list.merge intrudedAt.incarnation unreadable =
          .ok (.error (.store .unreadable), list)) ∧
        (0, Answer.done) ∈
          ((act intrudedAt (.event (.datagram unsolicited))).run joiner).2.answers := by
  refine ⟨reachable_joiner, by decide +kernel, by decide +kernel, ⟨_, rfl⟩, ?_⟩
  obtain ⟨turn, replying, begun⟩ := exists_turn_unsolicited
  have sameAnswers := (Within.of_run (carries_turn _ _) begun).answers_eq
  refine (mem_answers_act begun unsolicited_ne_command).mpr ?_
  exact
    ((replies_turn begun).done_iff sameAnswers (by decide +kernel) (by decide +kernel)
      unsolicited_ne_command).mpr joinedBy_unsolicited

end Node

end Roster
