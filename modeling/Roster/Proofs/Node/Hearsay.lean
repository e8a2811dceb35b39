import Roster.Proofs.Node.Turn

/-!
# What a node has heeded

A node suspects a target because of another host only as long as the suspicion
it was told of is outstanding: no word from the target at an incarnation that
is at least the suspected one was heeded since.  Every step of a node accounts
in this way for the suspicions it leaves.
-/

namespace Roster

/-- What an accepted envelope tells: that its sender is alive, and then what
its gossip says. -/
def Inbound.tidings (inbound : Inbound) : List Payload :=
  .alive inbound.envelope.sender :: inbound.fresh

namespace Node

/-! ## What a node has heeded -/

/-- The items that a node begins to heed when some arrive, in order: an
overflow stops it. -/
def heeded (moment : Moment) : List Payload → Node → List Payload
  | [], _ => []
  | payload :: rest, node =>
      match (heed moment payload).run node with
      | (.ok _, after) => payload :: heeded moment rest after
      | (.error _, _) => [payload]

/-- The items that a node begins to heed when something happens. -/
def hears (moment : Moment) (node : Node) : Event → List Payload
  | .datagram datagram =>
      match node.courier.accept datagram with
      | (some inbound, courier) => heeded moment inbound.tidings { node with courier }
      | (none, _) => []
  | _ => []

/-- What a node does with a datagram before it settles: whether it was
accepted.  An accepted envelope is word from its sender, so all it tells is
heeded, and then its message is handled. -/
def attend (moment : Moment) (datagram : Datagram) : Activity Bool := do
  let (accepted, courier) := (← get).courier.accept datagram
  modify fun node => { node with courier }
  match accepted with
  | some inbound => do
      inbound.tidings.forM (heed moment)
      handle moment datagram.sender inbound.envelope.message
      return true
  | none => return false

section Arrivals

variable {node : Node} {moment : Moment} {datagram : Datagram} {courier : Courier}

private theorem hears_of_dropped (dropped : node.courier.accept datagram = (none, courier)) :
    node.hears moment (.datagram datagram) = [] := by
  simp only [hears, dropped]

theorem hears_of_accepted {inbound : Inbound}
    (accepted : node.courier.accept datagram = (some inbound, courier)) :
    node.hears moment (.datagram datagram) =
      heeded moment inbound.tidings { node with courier } := by
  simp only [hears, accepted]

theorem run_attend_of_dropped (dropped : node.courier.accept datagram = (none, courier)) :
    (attend moment datagram).run node = (.ok false, { node with courier }) := by
  rw [attend, Activity.run_get_bind, dropped]
  rfl

theorem run_attend_of_accepted {inbound : Inbound}
    (accepted : node.courier.accept datagram = (some inbound, courier)) :
    (attend moment datagram).run node =
      (do
        inbound.tidings.forM (heed moment)
        handle moment datagram.sender inbound.envelope.message
        return true : Activity Bool).run { node with courier } := by
  rw [attend, Activity.run_get_bind, accepted]
  rfl

end Arrivals

theorem arrive_eq (moment : Moment) (datagram : Datagram) :
    arrive moment datagram = (do if ← attend moment datagram then settle) := by
  unfold arrive attend
  rw [bind_assoc]
  refine congrArg (bind get) (funext fun node => ?_)
  cases accepted : node.courier.accept datagram with
  | mk inbound courier =>
      cases inbound with
      | none => simp
      | some inbound => simp [Inbound.tidings, heed]

/-- A node has lived from a time when its endpoint was `own` and it suspected
nobody until now, and these are the items it has heeded since, in order.
Besides its events the link changes as the network does, and a node that nobody
uses any more leaves. -/
inductive Lives (own : Endpoint) : Node → List Payload → Prop where
  | start {node : Node} (listed : node.list.own = own)
      (named : node.eviction.detector.own = own)
      (unsuspecting : node.eviction.detector.suspicions = SortedMap.empty) :
      Lives own node []
  | step {node : Node} {heard : List Payload} (moment : Moment) (event : Event)
      (lives : Lives own node heard) :
      Lives own ((Node.step moment event).run node).2 (heard ++ node.hears moment event)
  | relink {node : Node} {heard : List Payload} (link : Link) (lives : Lives own node heard) :
      Lives own { node with courier := { node.courier with link } } heard
  | desert {node : Node} {heard : List Payload} (lives : Lives own node heard) :
      Lives own (leave.run node).2 heard

/-- The suspicion was heeded, and no word that refutes it was heeded later. -/
def Outstanding (heard : List Payload) (target suspector : Endpoint) : Prop :=
  ∃ before after, heard = before ++ .suspect target suspector :: after ∧
    ∀ refuting, .alive refuting ∈ after → ¬ refuting.Refutes target

theorem Outstanding.append {heard : List Payload} {target suspector : Endpoint}
    {payload : Payload} (outstanding : Outstanding heard target suspector)
    (harmless : ∀ refuting, payload = .alive refuting → ¬ refuting.Refutes target) :
    Outstanding (heard ++ [payload]) target suspector := by
  obtain ⟨before, after, rfl, unrefuted⟩ := outstanding
  refine ⟨before, after ++ [payload], by simp, fun refuting member => ?_⟩
  rcases List.mem_append.mp member with earlier | last
  · exact unrefuted refuting earlier
  · exact harmless refuting (List.mem_singleton.mp last).symm

/-- A suspicion that was refuted and not heeded again is not outstanding. -/
theorem not_outstanding {before after : List Payload} {target suspector refuting : Endpoint}
    (refutes : refuting.Refutes target) (silent : .suspect target suspector ∉ after) :
    ¬ Outstanding (before ++ .alive refuting :: after) target suspector := by
  rintro ⟨earlier, later, split, unrefuted⟩
  rcases List.append_eq_append_iff.mp split with ⟨middle, rfl, rest⟩ | ⟨middle, rfl, rest⟩
  · cases middle with
    | nil => cases rest
    | cons first middle =>
        cases rest
        exact silent (by simp)
  · cases middle with
    | nil => cases rest
    | cons first middle =>
        cases rest
        exact unrefuted refuting (by simp) refutes

/-! ## Every suspicion is outstanding -/

/-- What is true of a node that has heeded some items: it has stayed on its
host, its detector goes by the endpoint of the member list, and whenever it
suspects a target because of another host, the suspicion it was told of is
outstanding. -/
structure Accounts (own : Endpoint) (node : Node) (heard : List Payload) : Prop where
  lodged : node.list.own.sameHost own = true
  named : node.eviction.detector.own = node.list.own
  recorded : node.eviction.detector.Recorded
  outstanding : ∀ {target suspector : Endpoint}, suspector.sameHost own = false →
    node.eviction.detector.Blames target suspector → Outstanding heard target suspector

namespace Accounts

variable {own : Endpoint} {before after : Node} {heard : List Payload}

theorem of_drifts (accounts : Accounts own before heard) (sameList : after.list = before.list)
    (drifts : before.eviction.detector.Drifts after.eviction.detector) :
    Accounts own after heard where
  lodged := by
    rw [sameList]
    exact accounts.lodged
  named := by
    rw [drifts.own_eq, accounts.named, sameList]
  recorded := drifts.recorded accounts.recorded
  outstanding {target suspector} foreign blamed := by
    rcases drifts.blames blamed with earlier | self
    · exact accounts.outstanding foreign earlier
    · rw [self, accounts.named] at foreign
      exact absurd accounts.lodged (ne_true_of_eq_false foreign)

private theorem of_list {list : MemberList} (accounts : Accounts own before heard)
    (sameOwn : list.own = before.list.own) : Accounts own { before with list } heard where
  lodged := by
    rw [sameOwn]
    exact accounts.lodged
  named := accounts.named.trans sameOwn.symm
  recorded := accounts.recorded
  outstanding := accounts.outstanding

theorem move (accounts : Accounts own before heard) (move : Move before after) :
    Accounts own after heard := by
  cases move with
  | steady steady =>
      exact
        accounts.of_drifts steady.list_eq
          (Detector.Drifts.of_eq (by rw [steady.detector_eq]) (by rw [steady.detector_eq]))
  | detect operation quiet operated =>
      exact accounts.of_drifts rfl (Detector.Drifts.operate quiet operated)
  | edit edits => exact accounts.of_list edits.own_eq
  | merge reports kept => exact accounts.of_list kept
  | adopt reports =>
      exact
        { lodged := Endpoint.sameHost_trans reports.sameHost accounts.lodged
          named := rfl
          recorded := accounts.recorded
          outstanding := accounts.outstanding }
  | publish => exact accounts.of_drifts rfl (Detector.Drifts.of_eq rfl rfl)

theorem moves (accounts : Accounts own before heard) (moves : Moves before after) :
    Accounts own after heard := by
  induction moves with
  | refl => exact accounts
  | tail _ last inductionHypothesis => exact inductionHypothesis.move last

theorem deeds (accounts : Accounts own before heard)
    (deeds : Relation.ReflTransGen Deed before after) : Accounts own after heard := by
  induction deeds with
  | refl => exact accounts
  | tail _ last inductionHypothesis =>
      cases last with
      | move move => exact inductionHypothesis.move move
      | answer => exact inductionHypothesis.of_drifts rfl (Detector.Drifts.of_eq rfl rfl)

/-- Items other than word from an endpoint leave what is outstanding as it
is. -/
theorem append {node : Node} {payload : Payload} (accounts : Accounts own node heard)
    (silent : ∀ refuting, payload ≠ .alive refuting) : Accounts own node (heard ++ [payload]) where
  lodged := accounts.lodged
  named := accounts.named
  recorded := accounts.recorded
  outstanding foreign blamed :=
    (accounts.outstanding foreign blamed).append fun refuting same =>
      absurd same (silent refuting)

theorem observe {node : Node} (accounts : Accounts own node heard) (refuting : Endpoint)
    (now : Nat) :
    Accounts own ((Node.observe refuting now).run node).2 (heard ++ [.alive refuting]) := by
  have drifted :
      Accounts own
        { node with
          eviction :=
            { node.eviction with
              detector := (node.eviction.detector.observe refuting now).2 } }
        heard :=
    accounts.of_drifts rfl (Detector.Drifts.observe refuting)
  have observed :
      Accounts own
        { node with
          eviction :=
            { node.eviction with
              detector := (node.eviction.detector.observe refuting now).2 } }
        (heard ++ [.alive refuting]) := by
    refine
      ⟨drifted.lodged, drifted.named, drifted.recorded,
        fun {target suspector} foreign blamed => ?_⟩
    by_cases refutes : refuting.Refutes target
    · exact
        absurd blamed
          (Detector.not_blames_observe accounts.recorded refutes.1 refutes.2 suspector)
    · refine (drifted.outstanding foreign blamed).append fun other same => ?_
      cases same
      exact refutes
  exact observed.moves (moves_actOn Relation.ReflTransGen.refl)

theorem heedSuspicion {node : Node} (accounts : Accounts own node heard)
    (target suspector : Endpoint) (now : Nat) :
    Accounts own ((Node.heedSuspicion target suspector now).run node).2
      (heard ++ [.suspect target suspector]) := by
  have silent : Accounts own node (heard ++ [.suspect target suspector]) :=
    accounts.append (by simp)
  unfold Node.heedSuspicion
  rw [Activity.run_get_bind]
  simp only
  split
  · exact silent.moves (within_broadcast _ node)
  split
  · cases suspected : node.eviction.detector.suspect target suspector now with
    | error overflow => exact silent
    | ok result =>
        obtain ⟨finding, detector⟩ := result
        have told :
            Accounts own { node with eviction := { node.eviction with detector } }
              (heard ++ [.suspect target suspector]) := by
          refine
            ⟨accounts.lodged, (Detector.own_of_suspect suspected).trans accounts.named,
              Detector.recorded_of_suspect accounts.recorded suspected, ?_⟩
          intro other host foreign blamed
          rcases (Detector.blames_suspect_iff suspected).mp blamed with
            earlier | ⟨_, rfl, rfl⟩
          · exact silent.outstanding foreign earlier
          · exact ⟨heard, [], rfl, by simp⟩
        exact told.moves (moves_actOn Relation.ReflTransGen.refl)
  · exact silent

/-- Each item that a node heeds is accounted for. -/
theorem heed {node : Node} (accounts : Accounts own node heard) (moment : Moment)
    (payload : Payload) :
    Accounts own ((Node.heed moment payload).run node).2 (heard ++ [payload]) := by
  cases payload with
  | suspect target suspector => exact accounts.heedSuspicion target suspector moment.now
  | alive endpoint => exact accounts.observe endpoint moment.now
  | delta update =>
      have quiet : Activity.Within Move (Node.heed moment (.delta update)) :=
        within_heed moment (by simp)
      exact (accounts.moves (quiet node)).append (by simp)

private theorem heedAll (moment : Moment) :
    ∀ (payloads : List Payload) {node : Node} {heard : List Payload}, Accounts own node heard →
      Accounts own ((payloads.forM (Node.heed moment)).run node).2
        (heard ++ heeded moment payloads node)
  | [], node, heard, accounts => by
      rw [heeded, List.append_nil]
      exact accounts
  | payload :: rest, node, heard, accounts => by
      have first := accounts.heed moment payload
      cases result : (Node.heed moment payload).run node with
      | mk outcome after =>
          rw [result] at first
          rw [heeded, result]
          cases outcome with
          | ok value =>
              have others := heedAll moment rest first
              rw [Activity.run_forM_of_ok result]
              simpa using others
          | error overflow =>
              rw [Activity.run_forM_of_error result]
              exact first

theorem attend {node : Node} (accounts : Accounts own node heard) (moment : Moment)
    (datagram : Datagram) :
    Accounts own ((Node.attend moment datagram).run node).2
      (heard ++ node.hears moment (.datagram datagram)) := by
  cases accepted : node.courier.accept datagram with
  | mk inbound courier =>
      have taken : Accounts own { node with courier } heard :=
        accounts.of_drifts rfl (Detector.Drifts.of_eq rfl rfl)
      cases inbound with
      | none =>
          rw [run_attend_of_dropped accepted, hears_of_dropped accepted, List.append_nil]
          exact taken
      | some inbound =>
          rw [run_attend_of_accepted accepted, hears_of_accepted accepted]
          have told := heedAll moment inbound.tidings taken
          refine told.deeds (Activity.steps_rest fun _ => ?_)
          have handled := within_handleMessage moment datagram.sender inbound.envelope.message
          exact Activity.within_bind handled fun _ => Activity.within_pure true

theorem arrive {node : Node} (accounts : Accounts own node heard) (moment : Moment)
    (datagram : Datagram) :
    Accounts own ((Node.arrive moment datagram).run node).2
      (heard ++ node.hears moment (.datagram datagram)) := by
  rw [arrive_eq]
  refine (accounts.attend moment datagram).moves (Activity.steps_rest fun accepted => ?_)
  cases accepted with
  | true => exact within_settle
  | false => exact Activity.within_pure ()

/-- A step accounts for the items it begins to heed. -/
theorem step {node : Node} (accounts : Accounts own node heard) (moment : Moment) (event : Event) :
    Accounts own ((Node.step moment event).run node).2 (heard ++ node.hears moment event) := by
  cases event with
  | command ticket command =>
      rw [hears, List.append_nil]
      · exact accounts.deeds (within_obey moment ticket command node)
      · nofun
  | datagram datagram => exact accounts.arrive moment datagram
  | tick =>
      rw [hears, List.append_nil]
      · exact accounts.moves (within_tick moment.now node)
      · nofun

end Accounts

/-- In the whole life of a node every suspicion is outstanding. -/
theorem Lives.accounts {own : Endpoint} {node : Node} {heard : List Payload}
    (lives : Lives own node heard) : Accounts own node heard := by
  induction lives with
  | start listed named unsuspecting =>
      refine ⟨?_, named.trans listed.symm, ?_, ?_⟩
      · rw [listed]
        exact Endpoint.sameHost_iff.mpr ⟨rfl, rfl⟩
      · intro target suspicion found
        rw [unsuspecting] at found
        cases found
      · rintro target suspector _ ⟨suspicion, found, _⟩
        rw [unsuspecting] at found
        cases found
  | step moment event _ inductionHypothesis => exact inductionHypothesis.step moment event
  | relink link _ inductionHypothesis =>
      exact inductionHypothesis.of_drifts rfl (Detector.Drifts.of_eq rfl rfl)
  | desert _ inductionHypothesis => exact inductionHypothesis.deeds (within_leave _)

end Node

end Roster
