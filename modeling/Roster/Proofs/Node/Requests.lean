import Roster.Proofs.Node.Joining

/-!
# Requests

A node answers what it is asked for at once, except that a join may have to
wait.  Joins wait exactly as long as the join loop has an attempt out or is
about to retry, and whatever ends that answers all of them.  So every request
waits or was answered, once for every time it was made.
-/

namespace Roster

namespace Node

open Activity Relation

variable {node before after : Node} {α β : Type} {ticket : Ticket} {given : Answer}
  {told : List (Ticket × Answer)} {left : List Ticket}

/-! ## What leaves the requests alone -/

/-- Nobody was answered, nobody waits who did not, and the join loop is pending
if it was. -/
structure SameRequests (before after : Node) : Prop where
  pending_eq : after.joining.isPending = before.joining.isPending
  waiting_eq : after.waiting = before.waiting
  answers_eq : after.answers = before.answers

theorem SameRequests.refl (node : Node) : SameRequests node node :=
  ⟨rfl, rfl, rfl⟩

theorem SameRequests.trans {middle : Node} (first : SameRequests before middle)
    (second : SameRequests middle after) : SameRequests before after where
  pending_eq := second.pending_eq.trans first.pending_eq
  waiting_eq := second.waiting_eq.trans first.waiting_eq
  answers_eq := second.answers_eq.trans first.answers_eq

instance : IsPreorder Node SameRequests where
  refl := .refl
  trans _ _ _ := .trans

theorem SameRequests.attends : Attends SameRequests where
  broadcast _ := ⟨rfl, rfl, rfl⟩
  send _ _ _ _ := ⟨rfl, rfl, rfl⟩
  rename _ _ := ⟨rfl, rfl, rfl⟩
  ask _ _ := ⟨rfl, rfl, rfl⟩
  other _ _ _ _ _ _ := ⟨rfl, rfl, rfl⟩
  tune _ := ⟨rfl, rfl, rfl⟩
  change _ _ := ⟨rfl, rfl, rfl⟩
  switch _ _ := ⟨rfl, rfl, rfl⟩
  healing _ _ := ⟨rfl, rfl, rfl⟩
  schedule _ _ := ⟨rfl, rfl, rfl⟩
  spreading _ _ := ⟨rfl, rfl, rfl⟩
  retry checked := ⟨Joining.isPending_check checked, rfl, rfl⟩
  shut _ := ⟨rfl, rfl, rfl⟩

theorem SameRequests.judges : Judges SameRequests where
  judge _ _ := ⟨rfl, rfl, rfl⟩

/-! ## What is told -/

/-- Joins wait exactly as long as the join loop is pending. -/
def Balanced (node : Node) : Prop :=
  node.waiting ≠ [] ↔ node.joining.isPending = true

/-- Since it was the given node, a node has told the answers, in this order, and
then the rest waits.  If an overflow has come between, it has told the first of
them at most. -/
structure Tells (node : Node) (told : List (Ticket × Answer)) (left : List Ticket)
    (ran : Except Overflow α × Node) : Prop where
  answers_eq : ∀ value, ran.1 = .ok value → ran.2.answers = node.answers ++ told
  waiting_eq : ∀ value, ran.1 = .ok value → ran.2.waiting = left
  balanced : ∀ value, ran.1 = .ok value → node.Balanced → ran.2.Balanced
  most : ∃ part, part <+: told ∧ ran.2.answers = node.answers ++ part

theorem Tells.of_same {ran : Except Overflow α × Node} (same : SameRequests node ran.2) :
    Tells node [] node.waiting ran where
  answers_eq _ _ := by rw [same.answers_eq, List.append_nil]
  waiting_eq _ _ := same.waiting_eq
  balanced _ _ balanced := by rwa [Balanced, same.waiting_eq, same.pending_eq]
  most := ⟨[], List.nil_prefix, by rw [same.answers_eq, List.append_nil]⟩

theorem Tells.of_error {overflow : Overflow}
    (most : ∃ part, part <+: told ∧ after.answers = node.answers ++ part) :
    Tells node told left ((.error overflow, after) : Except Overflow α × Node) where
  answers_eq _ done := by cases done
  waiting_eq _ done := by cases done
  balanced _ done := by cases done
  most := most

/-- What is told by the second part of an activity is told by the activity, if
the first part leaves the requests alone. -/
theorem Tells.bind {activity : Activity α} {next : α → Activity β}
    (first : Within SameRequests activity) (unanswered : before.answers = node.answers)
    (second : ∀ value middle, SameRequests before middle →
      Tells node told left ((next value).run middle)) :
    Tells node told left ((activity >>= next).run before) := by
  have same := step_of_steps (first before)
  cases ran : activity.run before with
  | mk outcome middle =>
      rw [ran] at same
      cases outcome with
      | ok value =>
          rw [run_bind_of_ok ran]
          exact second value middle same
      | error overflow =>
          have silent : middle.answers = node.answers ++ [] := by
            rw [List.append_nil]
            exact same.answers_eq.trans unanswered
          rw [run_bind_of_error ran]
          exact .of_error ⟨[], List.nil_prefix, silent⟩

/-- What leaves the requests alone may follow. -/
theorem Tells.bind_same {activity : Activity α} {next : α → Activity β}
    (tells : Tells node told left (activity.run before))
    (second : ∀ value, Within SameRequests (next value)) :
    Tells node told left ((activity >>= next).run before) := by
  cases ran : activity.run before with
  | mk outcome middle =>
      rw [ran] at tells
      cases outcome with
      | ok value =>
          have same := step_of_steps (second value middle)
          rw [run_bind_of_ok ran]
          exact
            { answers_eq := fun _ _ => same.answers_eq.trans (tells.answers_eq value rfl)
              waiting_eq := fun _ _ => same.waiting_eq.trans (tells.waiting_eq value rfl)
              balanced := fun _ _ balanced => by
                have kept := tells.balanced value rfl balanced
                rwa [Balanced, same.waiting_eq, same.pending_eq]
              most := ⟨told, List.prefix_rfl, same.answers_eq.trans (tells.answers_eq value rfl)⟩ }
      | error overflow =>
          rw [run_bind_of_error ran]
          exact .of_error tells.most

/-! ## Answers -/

private theorem tells_answer (same : SameRequests node before) (ticket : Ticket) (given : Answer) :
    Tells node [(ticket, given)] node.waiting ((answer ticket given).run before) where
  answers_eq _ _ := congrArg (· ++ [(ticket, given)]) same.answers_eq
  waiting_eq _ _ := same.waiting_eq
  balanced _ _ balanced := by
    change before.waiting ≠ [] ↔ before.joining.isPending = true
    rwa [same.waiting_eq, same.pending_eq]
  most := ⟨_, List.prefix_rfl, congrArg (· ++ [(ticket, given)]) same.answers_eq⟩

/-- An answer may follow what has been told. -/
private theorem Tells.bind_answer {activity : Activity α}
    (tells : Tells node told left (activity.run before))
    (ticket : Ticket) (given : Answer) :
    Tells node (told ++ [(ticket, given)]) left
      ((activity >>= fun _ => answer ticket given).run before) := by
  cases ran : activity.run before with
  | mk outcome middle =>
      rw [ran] at tells
      cases outcome with
      | ok value =>
          have answered :
              middle.answers ++ [(ticket, given)] =
                node.answers ++ (told ++ [(ticket, given)]) := by
            rw [tells.answers_eq value rfl, List.append_assoc]
          rw [run_bind_of_ok ran]
          exact
            { answers_eq := fun _ _ => answered
              waiting_eq := fun _ _ => tells.waiting_eq value rfl
              balanced := fun _ _ => tells.balanced value rfl
              most := ⟨_, List.prefix_rfl, answered⟩ }
      | error overflow =>
          obtain ⟨part, within, answers⟩ := tells.most
          rw [run_bind_of_error ran]
          exact .of_error ⟨part, within.trans (List.prefix_append _ _), answers⟩

/-- Once the join loop is over, all that wait may be answered. -/
private theorem tells_answerWaiting (ended : before.joining.isPending = false)
    (sameWaiting : before.waiting = node.waiting) (sameAnswers : before.answers = node.answers)
    (given : Answer) :
    Tells node (node.waiting.map (·, given)) [] ((answerWaiting given).run before) := by
  have answered : before.answers ++ before.waiting.map (·, given) =
      node.answers ++ node.waiting.map (·, given) := by
    rw [sameWaiting, sameAnswers]
  exact
    { answers_eq := fun _ _ => answered
      waiting_eq := fun _ _ => rfl
      balanced := fun _ _ _ => by
        change ([] : List Ticket) ≠ [] ↔ before.joining.isPending = true
        simp [ended]
      most := ⟨_, List.prefix_rfl, answered⟩ }

def await (ticket : Ticket) : Activity Unit :=
  modify fun node => { node with waiting := node.waiting ++ [ticket] }

private theorem tells_await (pending : before.joining.isPending = true)
    (sameWaiting : before.waiting = node.waiting) (sameAnswers : before.answers = node.answers)
    (ticket : Ticket) :
    Tells node [] (node.waiting ++ [ticket]) ((await ticket).run before) where
  answers_eq _ _ := by
    rw [List.append_nil]
    exact sameAnswers
  waiting_eq _ _ := congrArg (· ++ [ticket]) sameWaiting
  balanced _ _ _ := by
    change before.waiting ++ [ticket] ≠ [] ↔ before.joining.isPending = true
    simp [pending]
  most := ⟨[], List.prefix_rfl, by
    rw [List.append_nil]
    exact sameAnswers⟩

/-! ## Occasions -/

def Occasion.tickets : Occasion → List Ticket
  | .event (.command ticket _) => [ticket]
  | _ => []

/-- What is to be told on an occasion, and who waits after it.  A join is
cancelled at once by a loop that is stopped, and it is done at once if it asks
nobody else while no join is pending; otherwise it waits.  Those who wait are
told that they are done when the loop is pending and an exchange of the join
kind is taken in, and they are cancelled when the node leaves. -/
inductive Due (node : Node) : Occasion → List (Ticket × Answer) → List Ticket → Prop where
  | stopped (ticket : Ticket) (seeds : List SocketAddress)
      (stopped : node.joining.isStopped = true) :
      Due node (.event (.command ticket (.join seeds))) [(ticket, .cancelled)] node.waiting
  | alone (ticket : Ticket) (seeds : List SocketAddress)
      (running : node.joining.isStopped = false) (idle : node.joining.isPending = false)
      (alone : ∀ seed ∈ seeds, seed = node.joining.own) :
      Due node (.event (.command ticket (.join seeds))) [(ticket, .done)] node.waiting
  | waits (ticket : Ticket) (seeds : List SocketAddress)
      (running : node.joining.isStopped = false)
      (asks : node.joining.isPending = true ∨ ∃ seed ∈ seeds, seed ≠ node.joining.own) :
      Due node (.event (.command ticket (.join seeds))) [] (node.waiting ++ [ticket])
  | host (ticket : Ticket) (agent : String) (given : Answer) :
      Due node (.event (.command ticket (.host agent))) [(ticket, given)] node.waiting
  | stopHosting (ticket : Ticket) (agent : String) (given : Answer) :
      Due node (.event (.command ticket (.stopHosting agent))) [(ticket, given)] node.waiting
  | close (ticket : Ticket) :
      Due node (.event (.command ticket .close))
        (node.waiting.map (·, .cancelled) ++ [(ticket, .done)]) []
  | desertion : Due node .desertion (node.waiting.map (·, .cancelled)) []
  | joined (datagram : Datagram) (joined : node.JoinedBy (.event (.datagram datagram))) :
      Due node (.event (.datagram datagram)) (node.waiting.map (·, .done)) []
  | unjoined (datagram : Datagram) (nobody : ¬ node.JoinedBy (.event (.datagram datagram))) :
      Due node (.event (.datagram datagram)) [] node.waiting
  | tick : Due node (.event .tick) [] node.waiting

/-- Whoever waited or asks is answered or waits, and nobody else. -/
theorem Due.perm {occasion : Occasion} (due : Due node occasion told left) :
    (left ++ told.map (·.1)).Perm (node.waiting ++ occasion.tickets) := by
  cases due with
  | close ticket => simp [Occasion.tickets, Function.comp_def]
  | desertion => simp [Occasion.tickets, Function.comp_def]
  | joined datagram joined => simp [Occasion.tickets, Function.comp_def]
  | _ => simp [Occasion.tickets]

/-- If every request waits or was answered, then so it does or was once this is
told. -/
theorem Due.accounted {occasion : Occasion} {tickets : List Ticket}
    (due : Due node occasion told left)
    (before : (node.waiting ++ node.answers.map (·.1)).Perm tickets) :
    (left ++ (node.answers ++ told).map (·.1)).Perm (tickets ++ occasion.tickets) := by
  let answered := node.answers.map (·.1)
  rw [List.map_append]
  calc
    List.Perm (left ++ (answered ++ told.map (·.1))) (answered ++ (left ++ told.map (·.1))) :=
      List.perm_append_comm_assoc _ _ _
    List.Perm _ (answered ++ (node.waiting ++ occasion.tickets)) := due.perm.append_left answered
    List.Perm _ (node.waiting ++ (answered ++ occasion.tickets)) :=
      List.perm_append_comm_assoc _ _ _
    _ = (node.waiting ++ answered) ++ occasion.tickets := (List.append_assoc _ _ _).symm
    List.Perm _ (tickets ++ occasion.tickets) := before.append_right _

/-! ## Commands -/

private theorem tells_changeHosting (node : Node) (ticket : Ticket)
    (change : MemberList → Except MemberList.Fault Bool × MemberList) :
    ∃ given, Tells node [(ticket, given)] node.waiting
      ((changeHosting ticket change).run node) := by
  have replies (list : MemberList) (given : Answer) :
      Tells node [(ticket, given)] node.waiting
        ((do
          settle
          answer ticket given : Activity Unit).run { node with list }) := by
    have edited : SameRequests node { node with list } := ⟨rfl, rfl, rfl⟩
    exact
      Tells.bind SameRequests.attends.within_settle rfl fun _ _ settling =>
        tells_answer (edited.trans settling) ticket given
  unfold changeHosting
  rw [run_get_bind]
  cases change node.list with
  | mk outcome list =>
      cases outcome with
      | ok _ => exact ⟨.done, replies list .done⟩
      | error fault => exact ⟨.refused fault, replies list (.refused fault)⟩

private theorem tells_join (ticket : Ticket) (seeds : List SocketAddress) (now : Nat) :
    ∃ told left, Due node (.event (.command ticket (.join seeds))) told left ∧
      Tells node told left ((join ticket seeds now).run node) := by
  have kept (joining : Joining) (same : joining.isPending = node.joining.isPending) :
      SameRequests node { node with joining } :=
    ⟨same, rfl, rfl⟩
  have waits (joining : Joining) (pending : joining.isPending = true) :
      Tells node [] (node.waiting ++ [ticket]) ((await ticket).run { node with joining }) := by
    refine tells_await pending ?_ ?_ ticket <;> rfl
  have asks (joining : Joining) (pending : joining.isPending = true)
      (contacted : List SocketAddress) :
      Tells node [] (node.waiting ++ [ticket])
        ((do
          await ticket
          contact contacted : Activity Unit).run { node with joining }) :=
    (waits joining pending).bind_same fun _ => SameRequests.attends.within_contact contacted
  unfold join
  rw [run_get_bind]
  by_cases stopped : node.joining.isStopped = true
  · refine ⟨_, _, .stopped ticket seeds stopped, ?_⟩
    rw [run_lift_bind_of_ok (Joining.join_of_isStopped stopped)]
    exact tells_answer (kept node.joining rfl) ticket .cancelled
  have running : node.joining.isStopped = false := Bool.not_eq_true _ ▸ stopped
  by_cases pending : node.joining.isPending = true
  · have sharing := (node.joining.isPending_heard seeds).trans pending
    obtain ⟨start, joined, awaits⟩ := Joining.join_of_isPending running pending
    refine ⟨_, _, .waits ticket seeds running (Or.inl pending), ?_⟩
    rw [run_lift_bind_of_ok joined]
    rcases awaits with rfl | ⟨contacted, rfl⟩
    · exact waits (node.joining.heard seeds) sharing
    · exact asks (node.joining.heard seeds) sharing contacted
  have idle : node.joining.isPending = false := Bool.not_eq_true _ ▸ pending
  by_cases alone : node.joining.remote seeds = []
  · refine ⟨_, _, .alone ticket seeds running idle (Joining.remote_eq_nil_iff.mp alone), ?_⟩
    rw [run_lift_bind_of_ok (Joining.join_of_remote_nil running idle alone)]
    exact tells_answer (kept _ (node.joining.isPending_heard seeds)) ticket .done
  · have others : ∃ seed ∈ seeds, seed ≠ node.joining.own := by
      simpa [Joining.remote_eq_nil_iff] using alone
    refine ⟨_, _, .waits ticket seeds running (Or.inr others), ?_⟩
    rw [Joining.join_of_remote running idle alone]
    cases Word.add now node.joining.timeout with
    | ok deadline => exact asks _ rfl _
    | error overflow => exact .of_error ⟨[], List.nil_prefix, (List.append_nil _).symm⟩

/-- To leave is to stop the loops, to cancel what waits, and to depart. -/
private theorem run_leave (node : Node) :
    leave.run node =
      (do
        answerWaiting .cancelled
        depart : Activity Unit).run
        { node with healing := node.healing.stop, joining := node.joining.stop.2 } := by
  have parts :
      leave =
        (do
          modify fun node : Node =>
            { node with healing := node.healing.stop, joining := node.joining.stop.2 }
          answerWaiting .cancelled
          depart) :=
    rfl
  rw [parts]
  exact run_bind_of_ok rfl

private theorem tells_leave :
    Tells node (node.waiting.map (·, .cancelled)) [] (leave.run node) := by
  rw [run_leave]
  refine Tells.bind_same ?_ fun _ =>
    SameRequests.attends.within_depart SameRequests.judges
  refine tells_answerWaiting ?_ ?_ ?_ .cancelled <;> rfl

/-! ## Datagrams -/

private theorem run_completeJoin_of_isPending (pending : before.joining.isPending = true) :
    completeJoin.run before =
      (do
        settle
        answerWaiting .done : Activity Unit).run
        { before with joining := { before.joining with phase := .joined } } := by
  rw [completeJoin, run_get_bind, Joining.respond, if_pos pending]
  rfl

private theorem run_completeJoin_of_idle (idle : before.joining.isPending = false) :
    completeJoin.run before = (.ok (), before) := by
  rw [completeJoin, run_get_bind, Joining.respond, if_neg (by simp [idle])]
  rfl

private theorem tells_handle_joined {moment : Moment} {sender : SocketAddress} {response : Batch}
    {request : Digest} (same : SameRequests node before)
    (pending : node.joining.isPending = true) :
    Tells node (node.waiting.map (·, .done)) []
      ((handle moment sender (.exchange .join response request)).run before) := by
  refine Tells.bind (SameRequests.attends.within_merge moment response) same.answers_eq
    fun _ merged merging => ?_
  have sameMerged := same.trans merging
  refine Tells.bind_same ?_ fun _ => SameRequests.attends.within_respond request sender
  rw [run_completeJoin_of_isPending (sameMerged.pending_eq.trans pending)]
  refine Tells.bind SameRequests.attends.within_settle sameMerged.answers_eq
    fun _ settled settling => ?_
  exact
    tells_answerWaiting settling.pending_eq (settling.waiting_eq.trans sameMerged.waiting_eq)
      (settling.answers_eq.trans sameMerged.answers_eq) .done

private theorem tells_handle_unjoined {moment : Moment} {sender : SocketAddress} {message : Message}
    (same : SameRequests node before)
    (nobody : ¬ (node.joining.isPending = true ∧
      ∃ response request, message = .exchange .join response request)) :
    Tells node [] node.waiting ((handle moment sender message).run before) := by
  by_cases exchange : ∃ response request, message = .exchange .join response request
  · have idle : node.joining.isPending = false :=
      Bool.not_eq_true _ ▸ fun pending => nobody ⟨pending, exchange⟩
    obtain ⟨response, request, rfl⟩ := exchange
    refine Tells.bind (SameRequests.attends.within_merge moment response) same.answers_eq
      fun _ merged merging => ?_
    have sameMerged := same.trans merging
    refine Tells.bind_same ?_ fun _ => SameRequests.attends.within_respond request sender
    rw [run_completeJoin_of_idle (sameMerged.pending_eq.trans idle)]
    exact .of_same sameMerged
  · have handled :=
      SameRequests.attends.within_handle SameRequests.judges moment sender message
        (fun response request found => absurd ⟨response, request, found⟩ exchange)
        fun sequence target alive _ =>
          SameRequests.attends.within_receiveIndirectAck sequence target alive moment.now
            fun _ => ⟨rfl, rfl, rfl⟩
    exact .of_same (same.trans (step_of_steps (handled before)))

private theorem tells_arrive (moment : Moment) (datagram : Datagram) :
    ∃ told left, Due node (.event (.datagram datagram)) told left ∧
      Tells node told left ((arrive moment datagram).run node) := by
  unfold arrive
  rw [run_get_bind]
  cases accepted : node.courier.accept datagram with
  | mk taken courier =>
      have taking : SameRequests node { node with courier } := ⟨rfl, rfl, rfl⟩
      cases taken with
      | none =>
          refine ⟨_, _, .unjoined datagram ?_, .of_same taking⟩
          rintro ⟨_, _, _, _, _, here, taken, _⟩
          cases here
          rw [accepted] at taken
          cases taken
      | some inbound =>
          -- What comes before the message and after it leaves the requests alone.
          have around {told : List (Ticket × Answer)} {left : List Ticket}
              (handled : ∀ heeded, SameRequests node heeded →
                Tells node told left
                  ((handle moment datagram.sender inbound.envelope.message).run heeded)) :
              Tells node told left
                ((do
                  observe inbound.envelope.sender moment.now
                  inbound.fresh.forM (heed moment)
                  handle moment datagram.sender inbound.envelope.message
                  settle : Activity Unit).run { node with courier }) := by
            refine Tells.bind (SameRequests.attends.within_observe _ _) rfl
              fun _ observed observing => ?_
            have sameObserved := taking.trans observing
            have harmless (payload : Payload) : Within SameRequests (heed moment payload) :=
              SameRequests.attends.within_heed moment payload SameRequests.judges.suspect
            refine Tells.bind (within_forM harmless inbound.fresh) sameObserved.answers_eq
              fun _ heeded heeding => ?_
            exact
              (handled heeded (sameObserved.trans heeding)).bind_same fun _ =>
                SameRequests.attends.within_settle
          by_cases exchange :
              node.joining.isPending = true ∧
                ∃ response request, inbound.envelope.message = .exchange .join response request
          · obtain ⟨pending, response, request, message⟩ := exchange
            refine ⟨_, _, .joined datagram ?_, around fun heeded same => ?_⟩
            · exact ⟨pending, datagram, inbound, response, request, rfl, by rw [accepted], message⟩
            · rw [message]
              exact tells_handle_joined same pending
          · refine ⟨_, _, .unjoined datagram ?_, around fun heeded same => ?_⟩
            · rintro ⟨pending, _, _, response, request, here, taken, message⟩
              cases here
              rw [accepted] at taken
              cases taken
              exact exchange ⟨pending, response, request, message⟩
            · exact tells_handle_unjoined same exchange

/-! ## What cannot fail -/

private theorem completes_post (message : Message) (destination : SocketAddress)
    (delivery : Delivery) :
    Completes (post message destination delivery) :=
  completes_bind (completes_modifyGet _) fun _ => completes_pure ()

private theorem completes_contact (seeds : List SocketAddress) : Completes (contact seeds) := by
  refine completes_get_bind fun node => ?_
  simp only
  split
  · exact completes_forM (fun _ => completes_post _ _ _) seeds
  · exact completes_pure ()

private theorem completes_depart : Completes depart := by
  have listed (count : Nat) : Completes (peerAddresses count) :=
    completes_bind (completes_modifyGet _) fun _ => completes_pure _
  refine completes_bind (completes_modify _) fun _ => completes_get_bind fun node => ?_
  refine completes_bind (listed _) fun targets => completes_get_bind fun node => ?_
  refine completes_bind (completes_modify _) fun _ => completes_bind ?_ fun _ => completes_modify _
  exact completes_forM (fun _ => completes_forM (fun _ => completes_post _ _ _) targets) _

private theorem completes_leave : Completes leave :=
  completes_bind (completes_modify _) fun _ =>
    completes_bind (completes_modify _) fun _ => completes_depart

private theorem completes_answer (ticket : Ticket) (given : Answer) :
    Completes (answer ticket given) :=
  completes_modify _

/-- A join comes upon an overflow only in its loop. -/
private theorem run_join_eq_ok {ticket : Ticket} {seeds : List SocketAddress} {now : Nat}
    {started : JoinStart × Joining} (joined : node.joining.join seeds now = .ok started) :
    ((join ticket seeds now).run node).1 = .ok () := by
  obtain ⟨start, joining⟩ := started
  have finishes {activity : Activity Unit} (completes : Completes activity) :
      (activity.run { node with joining }).1 = .ok () := by
    obtain ⟨_, done⟩ := completes { node with joining }
    exact done
  have waits : Completes (await ticket) := completes_modify _
  unfold join
  rw [run_get_bind, run_lift_bind_of_ok joined]
  cases start with
  | contact seeds => exact finishes (completes_bind waits fun _ => completes_contact seeds)
  | coalesced => exact finishes waits
  | complete => exact finishes (completes_answer ticket .done)
  | stopped => exact finishes (completes_answer ticket .cancelled)

/-- An occasion on which no overflow can come about: a join whose attempt, if it
begins one, ends at a time that fits a word, and to leave. -/
inductive Certain (node : Node) (now : Nat) : Occasion → Prop where
  | join (ticket : Ticket) (seeds : List SocketAddress)
      (fits : node.joining.isStopped = true ∨ node.joining.isPending = true ∨
        (∀ seed ∈ seeds, seed = node.joining.own) ∨
          now + node.joining.timeout < Word.bound) :
      Certain node now (.event (.command ticket (.join seeds)))
  | close (ticket : Ticket) : Certain node now (.event (.command ticket .close))
  | desertion : Certain node now .desertion

variable {moment : Moment} {occasion : Occasion}

private theorem Certain.run_act (certain : Certain node moment.now occasion) :
    ((act moment occasion).run node).1 = .ok () := by
  cases certain with
  | join ticket seeds fits =>
      obtain ⟨started, joined⟩ := Joining.join_succeeds fits
      exact run_join_eq_ok joined
  | close ticket =>
      have completes := completes_bind completes_leave fun _ => completes_answer ticket .done
      obtain ⟨_, done⟩ := completes node
      exact done
  | desertion =>
      obtain ⟨_, done⟩ := completes_leave node
      exact done

/-! ## All occasions -/

theorem tells_act (node : Node) (moment : Moment) (occasion : Occasion) :
    ∃ told left, Due node occasion told left ∧
      Tells node told left ((act moment occasion).run node) := by
  cases occasion with
  | desertion => exact ⟨_, _, .desertion, tells_leave⟩
  | event event =>
      cases event with
      | datagram datagram => exact tells_arrive moment datagram
      | tick =>
          have ticked := SameRequests.attends.within_tick SameRequests.judges moment.now node
          exact ⟨_, _, .tick, .of_same (step_of_steps ticked)⟩
      | command ticket command =>
          cases command with
          | join seeds => exact tells_join ticket seeds moment.now
          | host agent =>
              obtain ⟨given, tells⟩ := tells_changeHosting node ticket (·.host agent)
              exact ⟨_, _, .host ticket agent given, tells⟩
          | stopHosting agent =>
              obtain ⟨given, tells⟩ := tells_changeHosting node ticket (·.stopHosting agent)
              exact ⟨_, _, .stopHosting ticket agent given, tells⟩
          | close => exact ⟨_, _, .close ticket, tells_leave.bind_answer ticket .done⟩

/-! ## Runs -/

/-- A node that was made, and the requests that were made of it since, in order.
No occasion made it come upon an overflow.  Besides, the link changes as the
network does, and envelopes may be observed. -/
inductive Asked : List Ticket → Node → Prop where
  | start {options : Options} {own : Endpoint} {tags : Tags} {replica : ReplicaId}
      {link : Link} {chance : Chance} {node : Node}
      (made : Node.new options own tags replica link chance = .ok node) : Asked [] node
  | act {tickets : List Ticket} {node after : Node} (moment : Moment) (occasion : Occasion)
      (asked : Asked tickets node)
      (carried : (Node.act moment occasion).run node = (.ok (), after)) :
      Asked (tickets ++ occasion.tickets) after
  | relink {tickets : List Ticket} {node : Node} (link : Link) (asked : Asked tickets node) :
      Asked tickets { node with courier := { node.courier with link } }
  | watch {tickets : List Ticket} {node : Node} (observed : Option (List Envelope))
      (asked : Asked tickets node) :
      Asked tickets { node with courier := { node.courier with observed } }

variable {tickets : List Ticket}

/-- A new node was asked for nothing. -/
theorem asked_of_nothing {options : Options} {own : Endpoint} {tags : Tags} {replica : ReplicaId}
    {link : Link} {chance : Chance}
    (made : Node.new options own tags replica link chance = .ok node) :
    node.joining = Joining.new link.address options ∧ node.waiting = [] ∧ node.answers = [] := by
  obtain ⟨_, _, settled⟩ := exists_unsettled_of_new made
  have joins := Within.of_run SameJoins.admits.within_settle settled
  have requests := Within.of_run SameRequests.attends.within_settle settled
  exact ⟨joins.joining_eq, joins.waiting_eq, requests.answers_eq⟩

theorem Asked.balanced (asked : Asked tickets node) : node.Balanced := by
  induction asked with
  | start made =>
      obtain ⟨joining, nobody, _⟩ := asked_of_nothing made
      rw [Balanced, joining, nobody]
      simp [Joining.isPending, Joining.new]
  | act moment occasion _ carried inductionHypothesis =>
      obtain ⟨told, left, _, tells⟩ := tells_act _ moment occasion
      rw [carried] at tells
      exact tells.balanced () rfl inductionHypothesis
  | relink link _ inductionHypothesis => exact inductionHypothesis
  | watch observed _ inductionHypothesis => exact inductionHypothesis

/-- Every request waits or was answered, once for every time it was made. -/
theorem Asked.accounted (asked : Asked tickets node) :
    (node.waiting ++ node.answers.map (·.1)).Perm tickets := by
  induction asked with
  | start made =>
      obtain ⟨_, nobody, none⟩ := asked_of_nothing made
      simp [nobody, none]
  | @act tickets node after moment occasion _ carried inductionHypothesis =>
      obtain ⟨told, left, due, tells⟩ := tells_act node moment occasion
      rw [carried] at tells
      rw [tells.waiting_eq () rfl, tells.answers_eq () rfl]
      exact due.accounted inductionHypothesis
  | relink link _ inductionHypothesis => exact inductionHypothesis
  | watch observed _ inductionHypothesis => exact inductionHypothesis

/-- Joins wait exactly as long as the join loop is pending, and every request
waits or was answered, once for every time it was made.  What is told on an
occasion is what is due, or the first part of it if an overflow comes between,
so nobody is answered more often than they asked. -/
theorem request_waits_or_answered_once (asked : Asked tickets node) :
    (node.waiting ≠ [] ↔ node.joining.isPending = true) ∧
      (node.waiting ++ node.answers.map (·.1)).Perm tickets ∧
      ∀ (moment : Moment) (occasion : Occasion) (outcome : Except Overflow Unit) (after : Node),
        (act moment occasion).run node = (outcome, after) →
          (after.answers.map (·.1)).Subperm (tickets ++ occasion.tickets) ∧
          (Certain node moment.now occasion → outcome = .ok ()) ∧
          ∃ told left, Due node occasion told left ∧
            (outcome = .ok () → after.answers = node.answers ++ told ∧ after.waiting = left) ∧
            ∃ part, part <+: told ∧ after.answers = node.answers ++ part := by
  refine ⟨asked.balanced, asked.accounted, fun moment occasion outcome after carried => ?_⟩
  obtain ⟨told, left, due, tells⟩ := tells_act node moment occasion
  rw [carried] at tells
  obtain ⟨part, first, answers⟩ := tells.most
  have subperm :
      (after.answers.map (·.1)).Subperm (tickets ++ occasion.tickets) := by
    have sublist : after.answers.Sublist (node.answers ++ told) := by
      rw [answers]
      exact first.sublist.append_left node.answers
    have within : (after.answers.map (·.1)).Sublist (left ++ (node.answers ++ told).map (·.1)) :=
      (sublist.map _).trans (List.sublist_append_right _ _)
    exact within.subperm.trans (due.accounted asked.accounted).subperm
  have succeeds (certain : Certain node moment.now occasion) : outcome = .ok () := by
    have done := certain.run_act
    rwa [carried] at done
  refine ⟨subperm, succeeds, told, left, due, ?_, part, first, answers⟩
  rintro rfl
  exact ⟨tells.answers_eq () rfl, tells.waiting_eq () rfl⟩

/-- A host that has just started is asked to join a seed.  The join waits, and it
is cancelled when the host is deserted. -/
theorem request_waits_or_answered_once_deserted :
    ∃ node joiner deserted,
      (act { now := 100, incarnation := 50 } (.event (.command 0 (.join [seed])))).run node =
          (.ok (), joiner) ∧
        Asked [0] joiner ∧ joiner.waiting = [0] ∧ joiner.answers = [] ∧
        (act { now := 200, incarnation := 50 } .desertion).run joiner = (.ok (), deserted) ∧
        deserted.waiting = [] ∧ deserted.answers = [(0, .cancelled)] := by
  let options : Options := { retransmitMultiplier := 1 }
  let address : SocketAddress := ⟨.v4 0x0a000001, 1, 0⟩
  have rare : options.retransmitMultiplier.toNat ≤ 1 := by decide
  obtain ⟨node, made, _⟩ :=
    exists_new ⟨"10.0.0.1", 1, 5⟩ SortedMap.empty ⟨1⟩ { address } (Chance.ofSeed 1) rare
      (by decide) (by decide : 2 + 0 < Word.bound)
  obtain ⟨joining, nobody, none⟩ := asked_of_nothing made
  have asked : Asked [] node := .start made
  cases joined :
    (act { now := 100, incarnation := 50 } (.event (.command 0 (.join [seed])))).run node with
  | mk outcome joiner =>
      obtain ⟨_, succeeds, told, left, due, tells, _⟩ :=
        (request_waits_or_answered_once asked).2.2 _ _ outcome joiner joined
      have running : node.joining.isStopped = false := by
        rw [joining]
        decide
      have elsewhere : seed ≠ node.joining.own := by
        rw [joining]
        decide
      have early : 100 + node.joining.timeout < Word.bound := by
        rw [joining]
        decide
      obtain rfl : outcome = .ok () := succeeds (.join 0 [seed] (by simp [early]))
      obtain ⟨answers, waiting⟩ := tells rfl
      have waits : told = [] ∧ left = node.waiting ++ [0] := by
        cases due with
        | stopped _ _ stopped => simp [running] at stopped
        | alone _ _ _ _ alone => exact absurd (alone seed (by simp)) elsewhere
        | waits => exact ⟨rfl, rfl⟩
      rw [waits.1, none] at answers
      rw [waits.2, nobody] at waiting
      have askedOne : Asked [0] joiner := asked.act _ _ joined
      cases left : (act { now := 200, incarnation := 50 } .desertion).run joiner with
      | mk outcome deserted =>
          obtain ⟨_, succeeds, _, _, due, tells, _⟩ :=
            (request_waits_or_answered_once askedOne).2.2 _ _ outcome deserted left
          obtain rfl : outcome = .ok () := succeeds .desertion
          obtain ⟨gone, cancelled⟩ := tells rfl
          cases due
          rw [answers, waiting] at gone
          exact
            ⟨node, joiner, deserted, joined, askedOne, waiting, answers, left, cancelled, gone⟩

end Node

end Roster
