import Mathlib.Data.List.Basic
import Roster.Host
import Roster.Proofs.Node.Newcomer

/-!
# Closing a host

The calls of a host and its loop move one at a time, in any order.  The first
call to close that is polled while the host is started stops it, and it alone
sends the command to leave; every other call to close waits until the host is
shut down.  A call has come no further than the phase of its host allows, and
this is what every move keeps.
-/

namespace Roster

/-! ## Phases -/

/-- A host goes from one phase to another in one move, if it goes at all. -/
inductive Phase.Reaches : Phase → Phase → Prop where
  | stay (phase : Phase) : Reaches phase phase
  | stop : Reaches .started .stopping
  | finish : Reaches .stopping .shutdown

/-- The life of a host has come from one phase to another. -/
private theorem Phase.Reaches.ne_started {earlier later : Phase} (reaches : earlier.Reaches later)
    (stopped : earlier ≠ .started) : later ≠ .started := by
  cases reaches with
  | stay => exact stopped
  | stop => exact absurd rfl stopped
  | finish => decide

theorem Phase.Reaches.shutdown {earlier later : Phase} (reaches : earlier.Reaches later)
    (ended : earlier = .shutdown) : later = .shutdown := by
  subst ended
  cases reaches
  rfl

/-! ## Calls -/

namespace Call

/-- How far a call can have come in a phase of its host. -/
def Fits (phase : Phase) (call : Call) : Prop :=
  match call.stage with
  | .called => True
  | .sending | .answering => call.command = .close → phase ≠ .started
  | .ending | .watching => call.command = .close ∧ phase ≠ .started
  | .returned result => call.command = .close → result = .ok () ∧ phase = .shutdown

/-- The call is about to send the command to leave. -/
def isClosing (call : Call) : Bool :=
  match call.stage with
  | .sending => call.command = .close
  | _ => false

variable {call : Call} {earlier later : Phase}

theorem Fits.reach (fits : call.Fits earlier) (reaches : earlier.Reaches later) :
    call.Fits later := by
  obtain ⟨command, stage⟩ := call
  cases stage with
  | called => trivial
  | sending | answering => exact fun close => reaches.ne_started (fits close)
  | ending | watching => exact ⟨fits.1, reaches.ne_started fits.2⟩
  | returned result => exact fun close => ⟨(fits close).1, reaches.shutdown (fits close).2⟩

private theorem Fits.isClosing_of_started (fits : call.Fits .started) : call.isClosing = false := by
  obtain ⟨command, stage⟩ := call
  cases stage with
  | sending => exact decide_eq_false fun close => fits close rfl
  | _ => rfl

end Call

namespace Host

variable {host after : Host} {moment : Moment} {ticket : Ticket} {call : Call} {closes : Nat}

/-! ## The loop -/

/-- No call has moved, and nothing was added to the queue. -/
structure SameCalls (host after : Host) : Prop where
  calls : after.calls = host.calls
  phase : after.phase = host.phase
  queue : after.queue.length ≤ host.queue.length

theorem SameCalls.refl (host : Host) : SameCalls host host :=
  ⟨rfl, rfl, Nat.le_refl _⟩

theorem SameCalls.trans {middle : Host} (left : SameCalls host middle)
    (right : SameCalls middle after) : SameCalls host after where
  calls := right.calls.trans left.calls
  phase := right.phase.trans left.phase
  queue := Nat.le_trans right.queue left.queue

private theorem sameCalls_halt (host : Host) : SameCalls host host.halt :=
  ⟨rfl, rfl, Nat.zero_le _⟩

theorem sameCalls_drive (host : Host) (activity : Activity Unit) :
    SameCalls host (host.drive activity) := by
  unfold drive
  split
  · exact ⟨rfl, rfl, Nat.le_refl _⟩
  · exact ⟨rfl, rfl, Nat.zero_le _⟩

private theorem sameCalls_work (host : Host) (moment : Moment) :
    SameCalls host (host.work moment) := by
  unfold work
  split
  · split
    · rename_i ticket command queue waiting
      have taken : SameCalls host { host with queue } :=
        ⟨rfl, rfl, by rw [waiting]; exact Nat.le_succ _⟩
      have driven := taken.trans (sameCalls_drive _ (Node.step moment (.command ticket command)))
      simp only
      split
      · exact driven.trans (sameCalls_halt _)
      · exact driven
    · split
      · exact (sameCalls_drive _ _).trans (sameCalls_halt _)
      · exact .refl host
  · exact .refl host

private theorem sameCalls_read (host : Host) (moment : Moment) :
    SameCalls host (host.read moment) := by
  unfold read
  split
  · split
    · rename_i datagram inbox taken
      have taken : SameCalls host { host with inbox } := ⟨rfl, rfl, Nat.le_refl _⟩
      exact taken.trans (sameCalls_drive _ _)
    · exact .refl host
  · exact .refl host

private theorem sameCalls_tick (host : Host) (moment : Moment) :
    SameCalls host (host.tick moment) := by
  unfold tick
  split
  · exact sameCalls_drive _ _
  · exact .refl host

/-! ## One call -/

def closings (commands : List (Ticket × Command)) : Nat :=
  commands.countP fun command => command.2 = .close

/-- What one poll can do: the call comes no further than the phase allows, and
the command to leave is sent by a call that was about to. -/
structure Proceeds (host : Host) (call : Call) (stage : Stage) (after : Host) : Prop where
  calls : after.calls = host.calls
  phase : host.phase.Reaches after.phase
  won : host.phase = .started → after.phase ≠ .started →
    call.command = .close ∧ call.stage = .called
  fits : Call.Fits after.phase { call with stage }
  sent : closings (after.queue.drop host.queue.length) +
      (Call.isClosing { call with stage }).toNat ≤ call.isClosing.toNat ∨
    host.phase = .started ∧ closings (after.queue.drop host.queue.length) = 0
  silent : after.phase = .started → closings (after.queue.drop host.queue.length) = 0

theorem closings_drop_self (queue : List (Ticket × Command)) :
    closings (queue.drop queue.length) = 0 := by
  rw [List.drop_length]
  rfl

theorem Proceeds.of_same {stage : Stage} (fits : Call.Fits host.phase { call with stage })
    (calm : (Call.isClosing { call with stage }).toNat ≤ call.isClosing.toNat) :
    Proceeds host call stage host where
  calls := rfl
  phase := .stay _
  won started stopped := absurd started stopped
  fits := fits
  sent := by
    rw [closings_drop_self, Nat.zero_add]
    exact Or.inl calm
  silent _ := closings_drop_self _

private theorem enter_close_of_started (started : host.phase = .started) :
    host.enter .close = (.sending, { host with phase := .stopping }) := by
  unfold enter
  rw [started]

private theorem enter_close_of_ne (stopped : host.phase ≠ .started) :
    host.enter .close = (.watching, host) := by
  unfold enter
  cases phase : host.phase with
  | started => exact absurd phase stopped
  | _ => rfl

private theorem enter_of_started {command : Command} (other : command ≠ .close)
    (started : host.phase = .started) : host.enter command = (.sending, host) := by
  unfold enter
  rw [started]
  cases command with
  | close => exact absurd rfl other
  | _ => rfl

/-- Once the host is stopped every call but one to close is refused. -/
private theorem enter_of_ne {command : Command} (other : command ≠ .close)
    (stopped : host.phase ≠ .started) :
    host.enter command = (.returned (.error (.notAllowed host.phase)), host) := by
  unfold enter
  cases phase : host.phase with
  | started => exact absurd phase stopped
  | _ =>
      cases command with
      | close => exact absurd rfl other
      | _ => rfl

private theorem proceeds_enter (host : Host) (command : Command) :
    Proceeds host { command } (host.enter command).1 (host.enter command).2 := by
  by_cases close : command = .close <;> by_cases started : host.phase = .started
  · subst close
    rw [enter_close_of_started started]
    exact
      { calls := rfl
        phase := started ▸ .stop
        won := fun _ _ => ⟨rfl, rfl⟩
        fits := fun _ => Phase.noConfusion
        sent := Or.inr ⟨started, closings_drop_self _⟩
        silent := fun _ => closings_drop_self _ }
  · subst close
    rw [enter_close_of_ne started]
    exact .of_same ⟨rfl, started⟩ (Nat.le_refl _)
  · rw [enter_of_started close started]
    exact .of_same (fun same => absurd same close) (by simp [Call.isClosing, close])
  · rw [enter_of_ne close started]
    exact .of_same (fun same => absurd same close) (Nat.le_refl _)

private theorem fits_bereft {phase : Phase} {command : Command}
    (stopped : command = .close → phase ≠ .started) :
    Call.Fits phase { command, stage := bereft command } := by
  unfold bereft
  split
  · exact ⟨rfl, stopped rfl⟩
  · rename_i other
    exact fun close => absurd close other

private theorem fits_answered {phase : Phase} {command : Command}
    (stopped : command = .close → phase ≠ .started) (answer : Answer) :
    Call.Fits phase { command, stage := answered command answer } := by
  unfold answered
  split
  · exact ⟨rfl, stopped rfl⟩
  all_goals
    rename_i other
    exact fun close => absurd close other

private theorem isClosing_bereft (command : Command) :
    Call.isClosing { command, stage := bereft command } = false := by
  cases command <;> rfl

private theorem isClosing_answered (command : Command) (answer : Answer) :
    Call.isClosing { command, stage := answered command answer } = false := by
  cases command <;> cases answer <;> rfl

private theorem proceeds_submit {command : Command} (ticket : Ticket)
    (stopped : command = .close → host.phase ≠ .started) :
    Proceeds host { command, stage := .sending } (host.submit ticket command).1
      (host.submit ticket command).2 := by
  unfold submit
  split
  · exact .of_same (fits_bereft stopped) (by simp [isClosing_bereft])
  · split
    · have sent : closings ((host.queue ++ [(ticket, command)]).drop host.queue.length) =
          (decide (command = .close)).toNat := by
        rw [List.drop_left]
        by_cases close : command = .close <;> simp [closings, close]
      exact
        { calls := rfl
          phase := .stay _
          won := fun started stopped => absurd started stopped
          fits := stopped
          sent := Or.inl (Nat.le_of_eq sent)
          silent := fun started => by
            have other : command ≠ .close := fun close => stopped close started
            rw [sent, decide_eq_false other]
            rfl }
    · exact .of_same stopped (Nat.le_refl _)

private theorem proceeds_await {command : Command} (ticket : Ticket)
    (stopped : command = .close → host.phase ≠ .started) :
    Proceeds host { command, stage := .answering } (host.await ticket command) host := by
  unfold await
  split
  · exact .of_same (fits_answered stopped _) (by simp [isClosing_answered])
  · split
    · exact .of_same stopped (Nat.le_refl _)
    · exact .of_same (fits_bereft stopped) (by simp [isClosing_bereft])

private theorem proceeds_end {command : Command} (stopped : host.phase ≠ .started) :
    Proceeds host { command, stage := .ending } (.returned (.ok ()))
      { host with phase := .shutdown } where
  calls := rfl
  phase := by
    cases phase : host.phase with
    | started => exact absurd phase stopped
    | stopping => exact .finish
    | shutdown => exact .stay _
  won started := absurd started stopped
  fits _ := ⟨rfl, rfl⟩
  sent := by
    rw [closings_drop_self]
    exact Or.inl (Nat.le_refl _)
  silent _ := closings_drop_self _

/-- One poll of a call that fits. -/
private theorem proceeds_proceed (ticket : Ticket) (fits : call.Fits host.phase) :
    Proceeds host call (host.proceed ticket call).1 (host.proceed ticket call).2 := by
  obtain ⟨command, stage⟩ := call
  cases stage with
  | called => exact proceeds_enter host command
  | sending => exact proceeds_submit ticket fits
  | answering => exact proceeds_await ticket fits
  | ending =>
      simp only [proceed]
      split
      · exact .of_same fits (Nat.le_refl _)
      · exact proceeds_end fits.2
  | watching =>
      simp only [proceed]
      split
      · rename_i ended
        exact .of_same (fun _ => ⟨rfl, ended⟩) (Nat.le_refl _)
      · exact .of_same fits (Nat.le_refl _)
  | returned result => exact .of_same fits (Nat.le_refl _)

private theorem proceed_of_isReturned (returned : call.isReturned = true) :
    (host.proceed ticket call).1 = call.stage := by
  obtain ⟨command, stage⟩ := call
  cases stage with
  | returned result => rfl
  | _ => cases returned

/-! ## All calls -/

/-- All calls fit the phase, and the command to leave was sent once at most,
and not while the host was started. -/
structure Orderly (closes : Nat) (host : Host) : Prop where
  fits : ∀ call ∈ host.calls, call.Fits host.phase
  sent : closes + host.calls.countP Call.isClosing ≤ 1
  silent : host.phase = .started → closes = 0

theorem orderly_new (node : Node) : Orderly 0 { node } where
  fits := by simp
  sent := Nat.zero_le _
  silent _ := rfl

private theorem Orderly.none_closing (orderly : Orderly closes host)
    (started : host.phase = .started) :
    host.calls.countP Call.isClosing = 0 := by
  rw [List.countP_eq_zero]
  intro call among
  have fits := orderly.fits call among
  rw [started] at fits
  simp [fits.isClosing_of_started]

private theorem Orderly.sameCalls (orderly : Orderly closes host) (same : SameCalls host after) :
    Orderly closes after where
  fits := by
    rw [same.calls, same.phase]
    exact orderly.fits
  sent := by
    rw [same.calls]
    exact orderly.sent
  silent := by
    rw [same.phase]
    exact orderly.silent

private theorem poll_eq (found : host.calls[ticket]? = some call) :
    host.poll ticket =
      { (host.proceed ticket call).2 with
        calls :=
          (host.proceed ticket call).2.calls.set ticket
            { call with stage := (host.proceed ticket call).1 } } := by
  rw [poll, found]

private theorem countP_isClosing_set {calls : List Call} (found : calls[ticket]? = some call)
    (next : Call) :
    (calls.set ticket next).countP Call.isClosing + call.isClosing.toNat =
      calls.countP Call.isClosing + next.isClosing.toNat := by
  obtain ⟨inside, rfl⟩ := List.getElem?_eq_some_iff.mp found
  have counted : calls[ticket].isClosing = true → 0 < calls.countP Call.isClosing :=
    fun closing => List.countP_pos_iff.mpr ⟨_, List.getElem_mem inside, closing⟩
  rw [List.countP_set inside]
  cases closing : calls[ticket].isClosing with
  | false => cases next.isClosing <;> rfl
  | true =>
      have positive := counted closing
      cases next.isClosing <;> simp <;> omega

/-- A poll sends what its call sends. -/
theorem Orderly.set {stage : Stage} (orderly : Orderly closes host)
    (found : host.calls[ticket]? = some call) (proceeds : Proceeds host call stage after) :
    Orderly (closes + closings (after.queue.drop host.queue.length))
      { after with calls := after.calls.set ticket { call with stage } } where
  fits := by
    intro other among
    rw [proceeds.calls] at among
    rcases List.mem_or_eq_of_mem_set among with before | rfl
    · exact (orderly.fits other before).reach proceeds.phase
    · exact proceeds.fits
  sent := by
    have counted := countP_isClosing_set found { call with stage }
    have total := orderly.sent
    simp only [proceeds.calls]
    rcases proceeds.sent with spent | ⟨started, unsent⟩
    · omega
    · have one := Bool.toNat_le (Call.isClosing { call with stage })
      have none := orderly.none_closing started
      have unasked := orderly.silent started
      omega
  silent := by
    intro started
    have before : host.phase = .started := by
      by_contra stopped
      exact proceeds.phase.ne_started stopped started
    rw [orderly.silent before, proceeds.silent started]

/-! ## Moves -/

/-- What a move adds to the queue of commands. -/
def sends (host : Host) (moment : Moment) (move : Move) : List (Ticket × Command) :=
  (host.move moment move).queue.drop host.queue.length

private theorem SameCalls.closings_eq (same : SameCalls host after) :
    closings (after.queue.drop host.queue.length) = 0 := by
  rw [List.drop_eq_nil_of_le same.queue]
  rfl

/-- What a move can do to a host whose calls are in order. -/
structure Moves (closes : Nat) (host : Host) (moment : Moment) (move : Move) : Prop where
  orderly : Orderly (closes + closings (host.sends moment move)) (host.move moment move)
  phase : host.phase.Reaches (host.move moment move).phase
  won : host.phase = .started → (host.move moment move).phase ≠ .started →
    ∃ ticket call, move = .poll ticket ∧ host.calls[ticket]? = some call ∧
      call.command = .close ∧ call.stage = .called
  returned : ∀ (ticket : Ticket) (call : Call), host.calls[ticket]? = some call →
    call.isReturned = true → (host.move moment move).calls[ticket]? = some call

private theorem Orderly.moves_of_sameCalls {move : Move} (orderly : Orderly closes host)
    (same : SameCalls host (host.move moment move)) : Moves closes host moment move where
  orderly := by
    rw [sends, same.closings_eq]
    exact orderly.sameCalls same
  phase := same.phase ▸ .stay _
  won started stopped := absurd (same.phase.trans started) stopped
  returned _ _ found _ := same.calls ▸ found

private theorem Orderly.moves_call (orderly : Orderly closes host) (command : Command) :
    Moves closes host moment (.call command) := by
  have unsent : closings (host.sends moment (.call command)) = 0 := closings_drop_self _
  have counted :
      (host.calls ++ [({ command } : Call)]).countP Call.isClosing =
        host.calls.countP Call.isClosing := by
    rw [List.countP_append]
    rfl
  exact
    { orderly :=
        { fits := by
            intro call among
            rcases List.mem_append.mp among with before | new
            · exact orderly.fits call before
            · rw [List.mem_singleton.mp new]
              trivial
          sent := by
            rw [unsent]
            exact counted.symm ▸ orderly.sent
          silent := by
            intro started
            rw [orderly.silent started, unsent] }
      phase := .stay _
      won := fun started stopped => absurd started stopped
      returned := by
        intro ticket call found _
        have inside := (List.getElem?_eq_some_iff.mp found).1
        exact (List.getElem?_append_left inside).trans found }

private theorem Orderly.moves_poll (orderly : Orderly closes host) (ticket : Ticket) :
    Moves closes host moment (.poll ticket) := by
  cases found : host.calls[ticket]? with
  | none =>
      have unmoved : host.poll ticket = host := by rw [poll, found]
      refine orderly.moves_of_sameCalls ?_
      exact ⟨congrArg calls unmoved, congrArg phase unmoved, Nat.le_of_eq (by rw [move, unmoved])⟩
  | some call =>
      have proceeds :=
        proceeds_proceed ticket (orderly.fits call (List.mem_of_getElem? found))
      have polled : host.move moment (.poll ticket) = _ := poll_eq found
      exact
        { orderly := by
            rw [sends, polled]
            exact orderly.set found proceeds
          phase := by
            rw [polled]
            exact proceeds.phase
          won := by
            rw [polled]
            intro started stopped
            obtain ⟨close, called⟩ := proceeds.won started stopped
            exact ⟨ticket, call, rfl, found, close, called⟩
          returned := by
            intro other earlier foundOther returned
            rw [polled]
            by_cases here : ticket = other
            · subst here
              cases foundOther.symm.trans found
              have inside := (List.getElem?_eq_some_iff.mp found).1
              simp only [proceeds.calls, List.getElem?_set_self inside,
                proceed_of_isReturned returned]
            · simp only [proceeds.calls, List.getElem?_set_ne here, foundOther] }

theorem Orderly.moves (orderly : Orderly closes host) (moment : Moment) (move : Move) :
    Moves closes host moment move := by
  cases move with
  | call command => exact orderly.moves_call command
  | poll ticket => exact orderly.moves_poll ticket
  | work => exact orderly.moves_of_sameCalls (sameCalls_work host moment)
  | read => exact orderly.moves_of_sameCalls (sameCalls_read host moment)
  | tick => exact orderly.moves_of_sameCalls (sameCalls_tick host moment)
  | arrive datagram => exact orderly.moves_of_sameCalls ⟨rfl, rfl, Nat.le_refl _⟩
  | abandon => exact orderly.moves_of_sameCalls ⟨rfl, rfl, Nat.le_refl _⟩

/-! ## Runs -/

def run (host : Host) (moves : List (Moment × Move)) : Host :=
  moves.foldl (fun host made => host.move made.1 made.2) host

def sent (host : Host) : List (Moment × Move) → List (Ticket × Command)
  | [] => []
  | (moment, move) :: rest => host.sends moment move ++ (host.move moment move).sent rest

theorem Orderly.run (orderly : Orderly closes host) (moves : List (Moment × Move)) :
    Orderly (closes + closings (host.sent moves)) (host.run moves) := by
  induction moves generalizing closes host with
  | nil => exact orderly
  | cons made rest inductionHypothesis =>
      have total : closings (host.sent (made :: rest)) =
          closings (host.sends made.1 made.2) + closings ((host.move made.1 made.2).sent rest) :=
        List.countP_append
      rw [total, ← Nat.add_assoc]
      exact inductionHypothesis (orderly.moves made.1 made.2).orderly

/-- A call that has returned stays as it is. -/
private theorem Orderly.run_of_isReturned (orderly : Orderly closes host)
    (found : host.calls[ticket]? = some call) (returned : call.isReturned = true)
    (moves : List (Moment × Move)) : (host.run moves).calls[ticket]? = some call := by
  induction moves generalizing closes host with
  | nil => exact found
  | cons made rest inductionHypothesis =>
      have moved := orderly.moves made.1 made.2
      exact inductionHypothesis moved.orderly (moved.returned ticket call found returned)

private theorem result?_eq_some_iff {result : Except Fault Unit} :
    host.result? ticket = some result ↔
      ∃ command, host.calls[ticket]? = some { command, stage := .returned result } := by
  constructor
  · intro answered
    unfold result? at answered
    split at answered
    · rename_i command same found
      cases answered
      exact ⟨command, found⟩
    · cases answered
  · rintro ⟨command, found⟩
    rw [result?, found]

/-- In every run of a host the command to leave is sent once at most, the phase
only goes forward and leaves the start by the poll of a call to close, every
call to close that has returned found the host shut down, and every other call
that is first polled after the start is refused for good. -/
theorem closed_once (node : Node) (moves : List (Moment × Move)) :
    let host := Host.run { node } moves
    closings (Host.sent { node } moves) ≤ 1 ∧
      (∀ moment move,
        host.phase.Reaches (host.move moment move).phase ∧
          (host.phase = .started → (host.move moment move).phase ≠ .started →
            ∃ ticket call, move = .poll ticket ∧ host.calls[ticket]? = some call ∧
              call.command = .close ∧ call.stage = .called)) ∧
      (∀ call ∈ host.calls, call.command = .close → ∀ result,
        call.stage = .returned result → result = .ok () ∧ host.phase = .shutdown) ∧
      ∀ (ticket : Ticket) (call : Call), host.calls[ticket]? = some call →
        call.command ≠ .close → call.stage = .called → host.phase ≠ .started →
          ∀ moment more,
            ((host.move moment (.poll ticket)).run more).result? ticket =
              some (.error (.notAllowed host.phase)) := by
  intro host
  have orderly : Orderly (0 + closings (Host.sent { node } moves)) host :=
    (orderly_new node).run moves
  refine ⟨?_, fun moment move => ?_, fun call among close result returned => ?_,
    fun ticket call found other called stopped moment more => ?_⟩
  · have total := orderly.sent
    omega
  · have moved := orderly.moves moment move
    exact ⟨moved.phase, moved.won⟩
  · have fits := orderly.fits call among
    rw [Call.Fits, returned] at fits
    exact fits close
  · obtain ⟨command, stage⟩ := call
    cases called
    have moved := orderly.moves moment (.poll ticket)
    have inside := (List.getElem?_eq_some_iff.mp found).1
    have refused :
        (host.move moment (.poll ticket)).calls[ticket]? =
          some { command, stage := .returned (.error (.notAllowed host.phase)) } := by
      rw [move, poll_eq found]
      simp only [proceed, enter_of_ne other stopped, List.getElem?_set_self inside]
    exact
      result?_eq_some_iff.mpr ⟨command, moved.orderly.run_of_isReturned refused rfl more⟩

/-- A call to host an agent and two calls to close, of which the last one is polled first.
The loop leaves, and then both calls to close return. -/
def contest : List (Moment × Move) :=
  [.call (.host "agent"), .call .close, .call .close, .poll 2, .poll 1, .poll 0, .poll 2, .work,
      .poll 2, .poll 2, .poll 1].map
    fun move => (Node.clock 100, move)

/-- Whoever calls first does not matter, but who is polled first. -/
theorem closed_once_contest :
    let host := Host.run { node := Node.newcomer } contest
    closings (Host.sent { node := Node.newcomer } contest) = 1 ∧
      host.result? 0 = some (.error (.notAllowed .stopping)) ∧
      host.result? 1 = some (.ok ()) ∧ host.result? 2 = some (.ok ()) ∧
      host.phase = .shutdown := by
  intro host
  have computed :
      closings (Host.sent { node := Node.newcomer } contest) = 1 ∧
        host.result? 0 = some (.error (.notAllowed .stopping)) ∧
        host.result? 1 = some (.ok ()) ∧ host.result? 2 = some (.ok ()) ∧
        host.calls[2]?.map (·.command) = some .close := by
    decide +kernel
  obtain ⟨one, refused, waited, won, closes⟩ := computed
  obtain ⟨command, found⟩ := result?_eq_some_iff.mp won
  rw [found] at closes
  obtain ⟨_, _, ends, _⟩ := closed_once Node.newcomer contest
  have ended := ends _ (List.mem_of_getElem? found) (Option.some.inj closes) _ rfl
  exact ⟨one, refused, waited, won, ended.2⟩

end Host

end Roster
