import Roster.Proofs.Network.Delivery

/-!
# Ports that are chosen by the network

The search for a free port goes around: zero is tried after the largest port and before
20001, and all IP addresses share one cursor.  So a free port above 20000 is always
found, but when no port above the cursor is free at an address, zero may be chosen there.
-/

namespace Roster

namespace Network

/-! ## The order of ports -/

/-- The ports in the order in which they are tried, over and over. -/
def turnPort (turn : Nat) : UInt16 :=
  if turn % 45536 = 0 then 0 else UInt16.ofNat (20000 + turn % 45536)

/-- The turn of a port; those that are never tried count as zero. -/
def turnOf (port : UInt16) : Nat :=
  port.toNat - 20000

private theorem turnOf_lt (port : UInt16) : turnOf port < 45536 := by
  have := port.toNat_lt
  unfold turnOf
  omega

theorem toNat_turnPort (turn : Nat) :
    (turnPort turn).toNat = if turn % 45536 = 0 then 0 else 20000 + turn % 45536 := by
  unfold turnPort
  split
  · rfl
  · rw [UInt16.toNat_ofNat']
    omega

private theorem turnPort_congr {turn same : Nat} (congruent : turn % 45536 = same % 45536) :
    turnPort turn = turnPort same := by
  rw [turnPort, turnPort, congruent]

theorem turnOf_turnPort (turn : Nat) : turnOf (turnPort turn) = turn % 45536 := by
  unfold turnOf
  rw [toNat_turnPort]
  split <;> omega

theorem le_iff_toNat {port : UInt16} : 20001 ≤ port ↔ 20001 ≤ port.toNat := by
  rw [UInt16.le_iff_toNat_le]
  simp

theorem eq_zero_iff_toNat {port : UInt16} : port = 0 ↔ port.toNat = 0 := by
  rw [← UInt16.toNat_inj]
  simp

private theorem turnPort_turnOf {port : UInt16} (tried : 20001 ≤ port) :
    turnPort (turnOf port) = port := by
  have least := le_iff_toNat.mp tried
  have most := port.toNat_lt
  unfold turnOf
  rw [← UInt16.toNat_inj, toNat_turnPort]
  split <;> omega

private theorem toNat_max (left right : UInt16) :
    (max left right).toNat = max left.toNat right.toNat := by
  have maximum : max left right = if left ≤ right then right else left := rfl
  rw [maximum]
  split
  · rename_i below
    exact (Nat.max_eq_right (UInt16.le_iff_toNat_le.mp below)).symm
  · rename_i above
    exact (Nat.max_eq_left (UInt16.le_iff_toNat_le.mp (UInt16.le_of_lt (UInt16.not_le.mp above)))).symm

/-- The port that is tried after another is that of the next turn. -/
theorem nextPort_eq (port : UInt16) : nextPort port = turnPort (turnOf port + 1) := by
  have most := port.toNat_lt
  have floor : (20000 : UInt16).toNat = 20000 := by simp
  have one : (1 : UInt16).toNat = 1 := by simp
  unfold nextPort turnOf
  rw [← UInt16.toNat_inj, UInt16.toNat_add, toNat_max, toNat_turnPort, floor, one]
  split <;> omega

/-- A port is above the cursor exactly if its turn comes later in the round. -/
private theorem lt_turnOf_iff {cursor port : UInt16} :
    max cursor 20000 < port ↔ 20001 ≤ port ∧ turnOf cursor < turnOf port := by
  have floor : (20000 : UInt16).toNat = 20000 := by simp
  unfold turnOf
  rw [UInt16.lt_iff_toNat_lt, toNat_max, floor, le_iff_toNat]
  omega

/-! ## The search -/

variable {network after : Network} {ip : IpAddress} {history : List Occurrence}

/-- What is tried after the next port is what is tried after it by one turn more. -/
private theorem turnPort_next (port : UInt16) (steps : Nat) :
    turnPort (turnOf (nextPort port) + 1 + steps) = turnPort (turnOf port + 1 + (steps + 1)) := by
  rw [nextPort_eq, turnOf_turnPort]
  exact turnPort_congr (by omega)

private theorem turnPort_first (port : UInt16) :
    turnPort (turnOf port + 1 + 0) = nextPort port := by
  rw [Nat.add_zero, nextPort_eq]

/-- The search ends with the first port whose address is free. -/
private theorem freePort_eq_some {tries : Nat} {port found : UInt16}
    (search : network.freePort ip tries port = some found) :
    ∃ passed, found = turnPort (turnOf port + 1 + passed) ∧
      ∀ earlier < passed,
        network.routes.contains { ip, port := turnPort (turnOf port + 1 + earlier) } = true := by
  induction tries generalizing port with
  | zero => cases search
  | succ tries inductionHypothesis =>
      unfold freePort at search
      simp only at search
      split at search
      · rename_i taken
        obtain ⟨passed, same, all⟩ := inductionHypothesis search
        refine ⟨passed + 1, same.trans (turnPort_next port passed), fun earlier below => ?_⟩
        cases earlier with
        | zero => rwa [turnPort_first]
        | succ steps =>
            rw [← turnPort_next]
            exact all steps (Nat.lt_of_succ_lt_succ below)
      · refine ⟨0, ?_, fun _ below => absurd below (Nat.not_lt_zero _)⟩
        rw [turnPort_first, Option.some.inj search]

/-- The search comes to an end when a free port is among those it tries. -/
private theorem exists_freePort {tries : Nat} {port : UInt16} {steps : Nat} (within : steps < tries)
    (free : network.routes.contains { ip, port := turnPort (turnOf port + 1 + steps) } = false) :
    ∃ found, network.freePort ip tries port = some found := by
  induction tries generalizing port steps with
  | zero => exact absurd within (Nat.not_lt_zero _)
  | succ tries inductionHypothesis =>
      unfold freePort
      simp only
      split
      · rename_i taken
        cases steps with
        | zero =>
            rw [turnPort_first, taken] at free
            cases free
        | succ steps =>
            rw [← turnPort_next] at free
            exact inductionHypothesis (Nat.lt_of_succ_lt_succ within) free
      · exact ⟨_, rfl⟩

/-- One round of the search comes to every port from 20001 on. -/
private theorem exists_turn {port : UInt16} (tried : 20001 ≤ port) (start : Nat) :
    ∃ steps < 45536, turnPort (start + 1 + steps) = port := by
  have below := turnOf_lt port
  refine ⟨(turnOf port + 45535 - start % 45536) % 45536, Nat.mod_lt _ (by decide), ?_⟩
  refine (turnPort_congr ?_).trans (turnPort_turnOf tried)
  omega

/-- When a port is left to the network, it is the first free one of the search. -/
theorem bind_of_freePort {found : UInt16}
    (search : network.freePort ip 65536 network.lastPort = some found) :
    network.bind ip 0 = .ok ({ network with lastPort := found }.occupy { ip, port := found }) := by
  rw [bind, if_pos rfl, search]

/-- The search ends with zero exactly if it comes to zero before any free port. -/
private theorem turnPort_eq_zero_iff {start passed : Nat} (small : start < 45536)
    (free : network.routes.contains { ip, port := turnPort (start + 1 + passed) } = false)
    (taken : ∀ earlier < passed,
      network.routes.contains { ip, port := turnPort (start + 1 + earlier) } = true) :
    turnPort (start + 1 + passed) = 0 ↔
      network.routes.contains { ip, port := 0 } = false ∧
        ∀ turn, start < turn → turn < 45536 →
          network.routes.contains { ip, port := turnPort turn } = true := by
  have zero (turn : Nat) : turnPort turn = 0 ↔ turn % 45536 = 0 := by
    rw [eq_zero_iff_toNat, toNat_turnPort]
    split <;> omega
  constructor
  · intro ended
    refine ⟨ended ▸ free, fun turn above below => ?_⟩
    have steps : start + 1 + (turn - start - 1) = turn := by omega
    have ended := (zero _).mp ended
    rw [← steps]
    exact taken _ (by omega)
  · rintro ⟨freeZero, all⟩
    have last : turnPort (start + 1 + (45535 - start)) = 0 := (zero _).mpr (by omega)
    rcases Nat.lt_trichotomy passed (45535 - start) with before | same | beyond
    · rw [all _ (by omega) (by omega)] at free
      cases free
    · rw [same, last]
    · rw [← last, taken _ beyond] at freeZero
      cases freeZero

/-! ## A full round -/

private theorem freePort_of_vacant (routed : network.Routed) (tries : Nat) {port : UInt16}
    (vacant : network.Vacant { ip, port := nextPort port }) :
    network.freePort ip (tries + 1) port = some (nextPort port) := by
  unfold freePort
  simp only [routed.contains_eq_false_iff.mpr vacant]
  rfl

/-- A number of sockets were bound at one IP address, at ports that the network chose. -/
structure Crowded (ip : IpAddress) (count : Nat) (history : List Occurrence)
    (network : Network) : Prop where
  run : Runs deserted history network
  moves_eq : history.map (·.move) = List.replicate count (.bind ip 0)
  turn_eq : turnOf network.lastPort = count
  vacant : ∀ address, address.ip ≠ ip ∨ count < turnOf address.port → network.Vacant address

theorem Crowded.routed {count : Nat} (crowded : Crowded ip count history network) :
    network.Routed :=
  crowded.run.routed (.new _)

/-- While the round lasts, the next port is the one above the last. -/
theorem Crowded.bind {count : Nat} (crowded : Crowded ip count history network)
    (lasts : count < 45535) :
    ∃ after, Crowded ip (count + 1) (history ++ [⟨network, .bind ip 0⟩]) after := by
  have turn : turnOf (nextPort network.lastPort) = count + 1 := by
    rw [nextPort_eq, turnOf_turnPort, crowded.turn_eq]
    omega
  have vacant : network.Vacant { ip, port := nextPort network.lastPort } := by
    refine crowded.vacant _ (Or.inr ?_)
    rw [turn]
    exact Nat.lt_succ_self count
  have bound := bind_of_freePort (freePort_of_vacant crowded.routed 65535 vacant)
  have moved : network.move (.bind ip 0) = .ok
      ({ network with lastPort := nextPort network.lastPort }.occupy
        { ip, port := nextPort network.lastPort }).2 := by
    rw [Network.move, bound]
    rfl
  refine
    ⟨_,
      { run := crowded.run.move moved
        moves_eq := ?_
        turn_eq := turn
        vacant := fun address outside binding holds => ?_ }⟩
  · rw [List.map_append, crowded.moves_eq, List.replicate_succ']
    rfl
  · rcases (holds_occupy_iff (crowded.routed.cursor _)).mp holds with ⟨_, rfl⟩ | before
    · rcases outside with elsewhere | above
      · exact elsewhere rfl
      · exact absurd above (by rw [turn]; exact Nat.lt_irrefl _)
    · exact crowded.vacant address (outside.imp_right Nat.lt_of_succ_lt) binding before

private theorem exists_crowded (ip : IpAddress) {count : Nat} (lasts : count ≤ 45535) :
    ∃ history network, Crowded ip count history network := by
  induction count with
  | zero =>
      refine ⟨[], deserted, .start, rfl, rfl, fun address _ => ?_⟩
      simp [Vacant, Holds, deserted]
  | succ count inductionHypothesis =>
      obtain ⟨history, network, crowded⟩ := inductionHypothesis (Nat.le_of_succ_le lasts)
      exact ⟨_, crowded.bind lasts⟩

/-! ## What is found -/

/-- If a port above 20000 is free at an IP address, the network finds a port there at which
no socket is open, and opens one.  The port is one of those above 20000, unless it is zero;
and it is zero exactly if no port above the last one that was tried is free there, while
port zero is. -/
theorem ephemeral_port {chance : Chance} (run : Runs { chance } history network)
    (room : ∃ port : UInt16, 20001 ≤ port ∧ network.Vacant { ip, port }) :
    ∃ binding port after, network.bind ip 0 = .ok (binding, after) ∧
      after.addressOf? binding = some { ip, port } ∧ after.Holds binding { ip, port } ∧
      network.Vacant { ip, port } ∧
      (port = 0 ∨ 20001 ≤ port) ∧
      (port = 0 ↔
        network.Vacant { ip, port := 0 } ∧
          ∀ higher : UInt16, max network.lastPort 20000 < higher →
            ¬ network.Vacant { ip, port := higher }) := by
  have routed := run.routed (.new chance)
  obtain ⟨free, tried, vacant⟩ := room
  obtain ⟨steps, within, sameFree⟩ := exists_turn tried (turnOf network.lastPort)
  rw [← routed.contains_eq_false_iff, ← sameFree] at vacant
  have enough : steps < 65536 := by omega
  obtain ⟨found, search⟩ := exists_freePort enough vacant
  have unheld := contains_of_freePort search
  obtain ⟨passed, rfl, taken⟩ := freePort_eq_some search
  have holds := holds_occupy (routed.cursor (turnPort (turnOf network.lastPort + 1 + passed)))
    { ip, port := turnPort (turnOf network.lastPort + 1 + passed) }
  refine
    ⟨_, _, _, bind_of_freePort search, holds.addressOf?, holds,
      routed.contains_eq_false_iff.mp unheld, ?_, ?_⟩
  · rw [eq_zero_iff_toNat, le_iff_toNat, toNat_turnPort]
    split <;> omega
  · rw [turnPort_eq_zero_iff (turnOf_lt _) unheld taken, routed.contains_eq_false_iff]
    refine and_congr_right fun _ => ⟨fun all higher above => ?_, fun all turn above below => ?_⟩
    · have order := lt_turnOf_iff.mp above
      have present := all _ order.2 (turnOf_lt higher)
      rw [turnPort_turnOf order.1] at present
      rw [← routed.contains_eq_false_iff, present]
      decide
    · rw [← Bool.not_eq_false, routed.contains_eq_false_iff]
      refine all _ (lt_turnOf_iff.mpr ⟨?_, ?_⟩)
      · rw [le_iff_toNat, toNat_turnPort]
        split <;> omega
      · rw [turnOf_turnPort]
        omega

/-- Just before the round ends, the last port of it is given away at another IP address. -/
theorem ephemeral_port_before_round :
    ∃ history network, Runs deserted history network ∧
      history.map (·.move) = List.replicate 45534 (.bind (.v4 0x0a000001) 0) ∧
      (20001 : UInt16) ≤ 65535 ∧ network.Vacant { ip := .v4 0x0a000002, port := 65535 } ∧
      ∃ binding port after, network.bind (.v4 0x0a000002) 0 = .ok (binding, after) ∧
        after.Holds binding { ip := .v4 0x0a000002, port } ∧ 20001 ≤ port := by
  have lasts : 45534 ≤ 45535 := by decide
  obtain ⟨history, network, crowded⟩ := exists_crowded (.v4 0x0a000001) lasts
  have elsewhere : IpAddress.v4 0x0a000002 ≠ .v4 0x0a000001 := by decide
  have free (port : UInt16) : network.Vacant { ip := .v4 0x0a000002, port } :=
    crowded.vacant _ (Or.inl elsewhere)
  have tried : (20001 : UInt16) ≤ 65535 := by decide
  obtain ⟨binding, port, after, bound, _, holds, _, range, zero_iff⟩ :=
    ephemeral_port crowded.run ⟨65535, tried, free _⟩
  refine
    ⟨history, network, crowded.run, crowded.moves_eq, tried, free _, binding, port, after, bound,
      holds, range.resolve_left fun zero => ?_⟩
  have above : max network.lastPort 20000 < 65535 := by
    rw [lt_turnOf_iff, crowded.turn_eq]
    decide
  exact (zero_iff.mp zero).2 65535 above (free _)

/-- When all ports above 20000 were given away at one IP address, the first port that is
given away at another is zero, although every port is free there. -/
theorem port_zero_after_round :
    ∃ history network, Runs deserted history network ∧
      history.map (·.move) = List.replicate 45535 (.bind (.v4 0x0a000001) 0) ∧
      (∀ port, network.Vacant { ip := .v4 0x0a000002, port }) ∧
      ∃ binding after, network.bind (.v4 0x0a000002) 0 = .ok (binding, after) ∧
        after.addressOf? binding = some { ip := .v4 0x0a000002, port := 0 } := by
  obtain ⟨history, network, crowded⟩ := exists_crowded (.v4 0x0a000001) (Nat.le_refl 45535)
  have elsewhere : IpAddress.v4 0x0a000002 ≠ .v4 0x0a000001 := by decide
  have free (port : UInt16) : network.Vacant { ip := .v4 0x0a000002, port } :=
    crowded.vacant _ (Or.inl elsewhere)
  have round : nextPort network.lastPort = 0 := by
    rw [nextPort_eq, crowded.turn_eq, eq_zero_iff_toNat, toNat_turnPort]
    decide
  have bound := bind_of_freePort (freePort_of_vacant crowded.routed 65535 (free _))
  rw [round] at bound
  have holds := holds_occupy (crowded.routed.cursor 0) { ip := .v4 0x0a000002, port := 0 }
  exact ⟨history, network, crowded.run, crowded.moves_eq, free, _, _, bound, holds.addressOf?⟩

end Network

end Roster
