import Roster.Proofs.Node.Move

/-!
# When a node answers

A step that answers requests does so once, all at a time.  So it is cut at the
reply: what comes before and what follows goes on by moves and answers nobody.
Only a node that was told to close answers once more, after it has left.
-/

namespace Roster

namespace Node

open Activity Relation

/-! ## Replies -/

/-- The answers that are given at a time: none, that of one request, or those of
all joins that wait. -/
inductive Reply where
  | none
  | one (ticket : Ticket) (given : Answer)
  | waiting (given : Answer)

def Reply.give : Reply → Activity Unit
  | .none => return
  | .one ticket given => answer ticket given
  | .waiting given => answerWaiting given

/-- A reply that is due, and what is to be done after it. -/
structure Turn where
  reply : Reply
  rest : Activity Unit := return

def Turn.finish (turn : Turn) : Activity Unit := do
  turn.reply.give
  turn.rest

/-- What a node has to do with: an event, or that nobody uses it any more. -/
inductive Occasion where
  | event (event : Event)
  | desertion

/-- What a node does on an occasion. -/
def act (moment : Moment) : Occasion → Activity Unit
  | .event event => step moment event
  | .desertion => leave

/-! ## Up to the reply -/

def handleTurn (moment : Moment) (sender : SocketAddress) : Message → Activity Turn
  | .exchange .join response request => do
      merge moment response
      let (completed, joining) := (← get).joining.respond
      modify fun node => { node with joining }
      if completed then
        settle
        return { reply := .waiting .done, rest := respond request sender }
      else
        return { reply := .none, rest := respond request sender }
  | message => return { reply := .none, rest := handle moment sender message }

def arriveTurn (moment : Moment) (datagram : Datagram) : Activity Turn := do
  let (accepted, courier) := (← get).courier.accept datagram
  modify fun node => { node with courier }
  match accepted with
  | some inbound => do
      observe inbound.envelope.sender moment.now
      inbound.fresh.forM (heed moment)
      let turn ← handleTurn moment datagram.sender inbound.envelope.message
      let rest : Activity Unit := do
        turn.rest
        settle
      return { turn with rest }
  | none => return { reply := .none }

def joinTurn (ticket : Ticket) (seeds : List SocketAddress) (now : Nat) : Activity Turn := do
  let (start, joining) ← (← get).joining.join seeds now
  modify fun node => { node with joining }
  let wait : Activity Unit :=
    modify fun node => { node with waiting := node.waiting ++ [ticket] }
  match start with
  | .contact seeds =>
      let rest : Activity Unit := do
        wait
        contact seeds
      return { reply := .none, rest }
  | .coalesced => return { reply := .none, rest := wait }
  | .complete => return { reply := .one ticket .done }
  | .stopped => return { reply := .one ticket .cancelled }

def changeHostingTurn (ticket : Ticket)
    (change : MemberList → Except MemberList.Fault Bool × MemberList) : Activity Turn := do
  let (changed, list) := change (← get).list
  modify fun node => { node with list }
  settle
  match changed with
  | .ok _ => return { reply := .one ticket .done }
  | .error fault => return { reply := .one ticket (.refused fault) }

/-- What a leaving node does once it has cancelled what waits. -/
def depart : Activity Unit := do
  modify fun node => { node with eviction := node.eviction.stop }
  let targets ← peerAddresses (← get).courier.fanout
  let (updates, list) := (← get).list.stop.takeOutbox
  modify fun node => { node with list }
  updates.forM fun update =>
    targets.forM fun target => post (.store update) target .reliable
  modify fun node => { node with courier := node.courier.shutdown }

def leaveTurn : Activity Turn := do
  modify fun node =>
    { node with healing := node.healing.stop, joining := node.joining.stop.2 }
  return { reply := .waiting .cancelled, rest := depart }

/-- What a node does on an occasion up to the reply. -/
def turn (moment : Moment) : Occasion → Activity Turn
  | .event (.command ticket (.join seeds)) => joinTurn ticket seeds moment.now
  | .event (.command ticket (.host agent)) => changeHostingTurn ticket (·.host agent)
  | .event (.command ticket (.stopHosting agent)) =>
      changeHostingTurn ticket (·.stopHosting agent)
  | .event (.command _ .close) => leaveTurn
  | .event (.datagram datagram) => arriveTurn moment datagram
  | .event .tick => return { reply := .none, rest := tick moment.now }
  | .desertion => leaveTurn

/-- The answer to a request to close, which comes last. -/
def Occasion.conclude : Occasion → Activity Unit
  | .event (.command ticket .close) => answer ticket .done
  | _ => return

/-! ## Cut at the reply -/

private theorem handle_eq (moment : Moment) (sender : SocketAddress) (message : Message) :
    handle moment sender message = (do (← handleTurn moment sender message).finish) := by
  cases message with
  | exchange kind response request =>
      cases kind with
      | join =>
          simp only [handle, handleTurn, completeJoin, bind_assoc]
          refine congrArg (bind _) (funext fun _ => congrArg (bind _) (funext fun node => ?_))
          refine congrArg (bind _) (funext fun _ => ?_)
          cases node.joining.respond.1 <;> simp [Turn.finish, Reply.give]
      | heal => simp [handleTurn, Turn.finish, Reply.give]
  | _ => simp [handleTurn, Turn.finish, Reply.give]

private theorem arrive_eq_turn (moment : Moment) (datagram : Datagram) :
    arrive moment datagram = (do (← arriveTurn moment datagram).finish) := by
  simp only [arrive, arriveTurn, bind_assoc]
  refine congrArg (bind _) (funext fun node => congrArg (bind _) (funext fun _ => ?_))
  cases (node.courier.accept datagram).1 with
  | none => simp [Turn.finish, Reply.give]
  | some inbound => simp [Turn.finish, handle_eq]

theorem join_eq (ticket : Ticket) (seeds : List SocketAddress) (now : Nat) :
    join ticket seeds now = (do (← joinTurn ticket seeds now).finish) := by
  simp only [join, joinTurn, bind_assoc]
  refine congrArg (bind _) (funext fun node => congrArg (bind _) (funext fun started => ?_))
  obtain ⟨start, joining⟩ := started
  refine congrArg (bind _) (funext fun _ => ?_)
  cases start <;> simp [Turn.finish, Reply.give]

theorem changeHosting_eq (ticket : Ticket)
    (change : MemberList → Except MemberList.Fault Bool × MemberList) :
    changeHosting ticket change = (do (← changeHostingTurn ticket change).finish) := by
  simp only [changeHosting, changeHostingTurn, bind_assoc]
  refine congrArg (bind _) (funext fun node => congrArg (bind _) (funext fun _ => ?_))
  refine congrArg (bind _) (funext fun _ => ?_)
  cases (change node.list).1 <;> simp [Turn.finish, Reply.give]

private theorem leave_eq : leave = (do (← leaveTurn).finish) := by
  simp [leave, leaveTurn, Turn.finish, Reply.give, depart]

/-- Whatever a node does, it does up to the reply, replies, and does the rest. -/
theorem act_eq (moment : Moment) (occasion : Occasion) :
    act moment occasion =
      (do
        (← turn moment occasion).finish
        occasion.conclude) := by
  cases occasion with
  | desertion => simp [act, turn, leave_eq, Occasion.conclude]
  | event event =>
      cases event with
      | command ticket command =>
          cases command <;>
            simp [act, step, obey, turn, join_eq, changeHosting_eq, leave_eq, Occasion.conclude]
      | datagram datagram => simp [act, step, turn, arrive_eq_turn, Occasion.conclude]
      | tick => simp [act, step, turn, Turn.finish, Reply.give, Occasion.conclude]

/-! ## Nobody is answered before the reply or after it -/

theorem within_handleTurn (moment : Moment) (sender : SocketAddress) (message : Message) :
    Within Move (handleTurn moment sender message) := by
  cases message with
  | exchange kind response request =>
      cases kind with
      | join =>
          refine within_bind (within_merge moment response) fun _ => within_get_bind fun node => ?_
          have responded : Move node { node with joining := node.joining.respond.2 } :=
            .steady (.loops _ _ _ _)
          refine steps_bind (ReflTransGen.single responded) fun _ after _ => ?_
          split
          · exact within_bind within_settle (fun _ => within_pure _) after
          · exact ReflTransGen.refl
      | heal => exact within_pure _
  | _ => exact within_pure _

/-- To handle a message answers requests at the reply only. -/
theorem rest_handleTurn (moment : Moment) (sender : SocketAddress) (message : Message) :
    Yields (fun turn => Within Move turn.rest) (handleTurn moment sender message) := by
  cases message with
  | ping sequence target => exact yields_pure (within_answerPing sequence target sender)
  | ack sequence => exact yields_pure (within_receiveAck sequence)
  | pingRequest sequence target =>
      exact yields_pure (within_relay sequence target sender moment.now)
  | indirectAck sequence target alive =>
      exact yields_pure (within_receiveIndirectAck sequence target alive moment.now)
  | join digest updates =>
      exact
        yields_pure
          (within_bind (within_merge moment updates) fun _ => within_offer .join digest sender)
  | heal digest => exact yields_pure (within_offer .heal digest sender)
  | exchange kind response request =>
      cases kind with
      | join =>
          refine yields_bind fun _ => yields_bind fun node => yields_bind fun _ => ?_
          split
          · exact yields_bind fun _ => yields_pure (within_respond request sender)
          · exact yields_pure (within_respond request sender)
      | heal =>
          exact
            yields_pure
              (within_bind (within_merge moment response) fun _ =>
                within_bind (within_completeHealing sender) fun _ =>
                  within_respond request sender)
  | response updates => exact yields_pure (within_merge moment updates)
  | store update => exact yields_pure (within_receive moment update)
  | gossip => exact yields_pure (within_pure ())

theorem steady_joinTurn (ticket : Ticket) (seeds : List SocketAddress) (now : Nat) :
    Within Steady (joinTurn ticket seeds now) := by
  refine within_get_bind fun node => steps_lift_bind fun started _ => ?_
  obtain ⟨start, joining⟩ := started
  refine steps_bind (ReflTransGen.single (.loops joining _ _ _)) fun _ after _ => ?_
  cases start <;> exact ReflTransGen.refl

theorem rest_joinTurn (ticket : Ticket) (seeds : List SocketAddress) (now : Nat) :
    Yields (fun turn => Within Steady turn.rest) (joinTurn ticket seeds now) := by
  have waits :
      Within Steady
        (modify fun node : Node => { node with waiting := node.waiting ++ [ticket] }) :=
    within_modify fun node => .loops _ _ _ (node.waiting ++ [ticket])
  refine yields_bind fun node => yields_bind fun started => yields_bind fun _ => ?_
  obtain ⟨start, joining⟩ := started
  cases start with
  | contact seeds => exact yields_pure (within_bind waits fun _ => steady_contact seeds)
  | coalesced => exact yields_pure waits
  | complete => exact yields_pure (within_pure ())
  | stopped => exact yields_pure (within_pure ())

theorem within_changeHostingTurn (ticket : Ticket)
    (change : MemberList → Except MemberList.Fault Bool × MemberList)
    (edits : ∀ list : MemberList, list.Edits (change list).2) :
    Within Move (changeHostingTurn ticket change) := by
  refine within_get_bind fun node => ?_
  refine steps_bind (ReflTransGen.single (.edit (edits node.list))) fun _ after _ => ?_
  refine within_bind within_settle (fun _ => ?_) after
  split <;> exact within_pure _

theorem rest_changeHostingTurn (ticket : Ticket)
    (change : MemberList → Except MemberList.Fault Bool × MemberList) :
    Yields (fun turn => Within Steady turn.rest) (changeHostingTurn ticket change) := by
  refine yields_bind fun node => yields_bind fun _ => yields_bind fun _ => ?_
  split <;> exact yields_pure (within_pure ())

theorem within_stopWatching :
    Within Move (modify fun node : Node => { node with eviction := node.eviction.stop }) := by
  intro node
  have abandoned :
      Move node
        { node with
          eviction := { node.eviction with detector := node.eviction.detector.abandon } } :=
    .detect .abandon trivial rfl
  exact (ReflTransGen.single abandoned).tail (.steady (.eviction rfl))

theorem within_depart : Within Move depart := by
  refine within_bind within_stopWatching fun _ => within_get_bind fun node => ?_
  refine steps_bind (within_peerAddresses _ node) fun targets after _ => ?_
  refine within_get_bind (fun node => ?_) after
  have stopped : Move node { node with list := node.list.stop } := .edit .stop
  have left : Moves node { node with list := node.list.stop.takeOutbox.2 } :=
    (ReflTransGen.single stopped).tail (.edit .drain)
  refine steps_bind left fun _ after _ => ?_
  have told (update : Update) :
      Within Move (targets.forM fun target => post (.store update) target .reliable) :=
    within_forM (fun target => within_post _ target .reliable) targets
  refine within_bind (within_forM told _) (fun _ => ?_) after
  exact within_modify fun _ => .steady (.courier ⟨rfl, rfl⟩)

theorem steady_leaveTurn : Within Steady leaveTurn :=
  within_bind (within_modify fun _ => .loops _ _ _ _) fun _ => within_pure _

theorem rest_leaveTurn : Yields (fun turn => Within Move turn.rest) leaveTurn :=
  yields_bind fun _ => yields_pure within_depart

/-! ## Answering -/

/-- A move, or an answer. -/
inductive Deed : Node → Node → Prop where
  | move {before after : Node} (move : Move before after) : Deed before after
  | answer {node : Node} (waiting : List Ticket) (answers : List (Ticket × Answer)) :
      Deed node { node with waiting, answers }

theorem within_answer (ticket : Ticket) (given : Answer) : Within Deed (answer ticket given) :=
  within_modify fun _ => .answer _ _

private theorem within_give (reply : Reply) : Within Deed reply.give := by
  cases reply with
  | none => exact within_pure ()
  | one ticket given => exact within_answer ticket given
  | waiting given => exact within_modify fun _ => .answer _ _

/-- An activity that answers at its reply only goes on by moves and answers. -/
theorem within_finish {begin : Activity Turn} (before : Within Move begin)
    (after : Yields (fun turn => Within Move turn.rest) begin) :
    Within Deed (do (← begin).finish) := by
  intro node
  refine steps_bind (before.mono .move node) fun turn replying begun => ?_
  have rest := after node turn replying begun
  exact within_bind (within_give turn.reply) (fun _ => rest.mono .move) replying

theorem within_handleMessage (moment : Moment) (sender : SocketAddress) (message : Message) :
    Within Deed (handle moment sender message) := by
  rw [handle_eq]
  exact
    within_finish (within_handleTurn moment sender message)
      (rest_handleTurn moment sender message)

theorem within_leave : Within Deed leave := by
  rw [leave_eq]
  exact within_finish (steady_leaveTurn.mono .steady) rest_leaveTurn

theorem within_changeHosting (ticket : Ticket)
    (change : MemberList → Except MemberList.Fault Bool × MemberList)
    (edits : ∀ list : MemberList, list.Edits (change list).2) :
    Within Deed (changeHosting ticket change) := by
  rw [changeHosting_eq]
  exact
    within_finish (within_changeHostingTurn ticket change edits)
      ((rest_changeHostingTurn ticket change).mono fun _ rest => rest.mono .steady)

theorem within_join (ticket : Ticket) (seeds : List SocketAddress) (now : Nat) :
    Within Deed (join ticket seeds now) := by
  rw [join_eq]
  exact
    within_finish ((steady_joinTurn ticket seeds now).mono .steady)
      ((rest_joinTurn ticket seeds now).mono fun _ rest => rest.mono .steady)

theorem within_obey (moment : Moment) (ticket : Ticket) (command : Command) :
    Within Deed (obey moment ticket command) := by
  cases command with
  | join seeds => exact within_join ticket seeds moment.now
  | host agent => exact within_changeHosting ticket (·.host agent) fun _ => .host agent
  | stopHosting agent =>
      exact within_changeHosting ticket (·.stopHosting agent) fun _ => .stopHosting agent
  | close => exact within_bind within_leave fun _ => within_answer ticket .done

end Node

end Roster
