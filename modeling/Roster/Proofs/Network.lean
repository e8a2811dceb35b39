import Mathlib.Data.List.Basic
import Std.Data.HashMap.Lemmas
import Roster.Network

/-!
# The sockets of a network

A socket is open at an address from its binding until it is shut down.  The routes
lead from every address to the socket that is open there, and nowhere else: a binding
enters a new number at an address without a socket, and to shut a socket down removes
the route that leads to it.  When the address was bound anew, no route leads to the old
socket any more, so it may be shut down again without harm.
-/

namespace Roster

namespace Network

variable {network after : Network} {binding other opened : Binding}
  {address : SocketAddress} {datagram : Datagram}

/-! ## Open sockets and inboxes -/

def Holds (network : Network) (binding : Binding) (address : SocketAddress) : Prop :=
  ∃ socket, network.sockets[binding]? = some socket ∧ socket.isOpen = true ∧
    socket.address = address

instance : Decidable (network.Holds binding address) :=
  decidable_of_iff
    (network.sockets[binding]?.any fun socket => socket.isOpen && socket.address = address)
    (by simp [Holds, Option.any_eq_true])

def Vacant (network : Network) (address : SocketAddress) : Prop :=
  ∀ binding, ¬ network.Holds binding address

def inbox (network : Network) (binding : Binding) : List Datagram :=
  network.sockets[binding]?.elim [] (·.inbox)

theorem Holds.addressOf? (holds : network.Holds binding address) :
    network.addressOf? binding = some address := by
  obtain ⟨socket, found, _, here⟩ := holds
  rw [Network.addressOf?, found, Option.map_some, here]

/-! ## Routes -/

/-- A route leads from every address to the socket that is open there, if there is one, and
sockets are numbered in the order of binding. -/
structure Routed (network : Network) : Prop where
  routes_iff : ∀ {address binding},
    network.routes[address]? = some binding ↔ network.Holds binding address
  le_bound : ∀ {binding socket}, network.sockets[binding]? = some socket →
    binding ≤ network.bound

namespace Routed

theorem new (chance : Chance) : Routed { chance } where
  routes_iff := by simp [Holds]
  le_bound := by simp

/-- Two open sockets have different addresses. -/
theorem unique (routed : network.Routed) {first second : Binding}
    (one : network.Holds first address) (another : network.Holds second address) :
    first = second :=
  Option.some.inj ((routed.routes_iff.mpr one).symm.trans (routed.routes_iff.mpr another))

private theorem vacant_iff (routed : network.Routed) :
    network.Vacant address ↔ network.routes[address]? = none := by
  rw [Option.eq_none_iff_forall_ne_some]
  exact forall_congr' fun binding => not_congr routed.routes_iff.symm

theorem contains_eq_false_iff (routed : network.Routed) :
    network.routes.contains address = false ↔ network.Vacant address := by
  rw [routed.vacant_iff, Std.HashMap.contains_eq_isSome_getElem?, Option.isSome_eq_false_iff,
    Option.isNone_iff_eq_none]

theorem contains_iff (routed : network.Routed) :
    network.routes.contains address = true ↔ ∃ binding, network.Holds binding address := by
  rw [← Bool.not_eq_false, routed.contains_eq_false_iff, Vacant]
  simp

private theorem sockets_next (routed : network.Routed) :
    network.sockets[network.bound + 1]? = none := by
  by_contra present
  obtain ⟨socket, found⟩ := Option.ne_none_iff_exists'.mp present
  have := routed.le_bound found
  omega

end Routed

/-! ## Binding -/

theorem sockets_occupy :
    (network.occupy address).2.sockets[other]? =
      if network.bound + 1 = other then some { address } else network.sockets[other]? := by
  simp [occupy, Std.HashMap.getElem?_insert]

private theorem routes_occupy {destination : SocketAddress} :
    (network.occupy address).2.routes[destination]? =
      if address = destination then some (network.bound + 1)
      else network.routes[destination]? := by
  simp [occupy, Std.HashMap.getElem?_insert]

/-- The new socket is open at its address, and all others are as they were. -/
theorem holds_occupy_iff (routed : network.Routed) {destination : SocketAddress} :
    (network.occupy address).2.Holds other destination ↔
      other = network.bound + 1 ∧ destination = address ∨ network.Holds other destination := by
  unfold Holds
  rw [sockets_occupy]
  by_cases new : other = network.bound + 1
  · subst new
    simp [routed.sockets_next, eq_comm (a := destination)]
  · rw [if_neg (Ne.symm new)]
    simp [new]

theorem holds_occupy (routed : network.Routed) (address : SocketAddress) :
    (network.occupy address).2.Holds (network.occupy address).1 address :=
  (holds_occupy_iff routed).mpr (Or.inl ⟨rfl, rfl⟩)

theorem inbox_occupy (routed : network.Routed) :
    (network.occupy address).2.inbox other = network.inbox other := by
  unfold inbox
  rw [sockets_occupy]
  by_cases new : network.bound + 1 = other
  · subst new
    simp [routed.sockets_next]
  · simp [new]

theorem Routed.occupy (routed : network.Routed) (vacant : network.Vacant address) :
    (network.occupy address).2.Routed where
  routes_iff {destination opened} := by
    rw [holds_occupy_iff routed, routes_occupy]
    by_cases same : address = destination
    · subst same
      simp [vacant opened, eq_comm]
    · simp [same, Ne.symm same, routed.routes_iff]
  le_bound {opened socket} found := by
    rw [sockets_occupy] at found
    change opened ≤ network.bound + 1
    split at found
    · omega
    · exact Nat.le_succ_of_le (routed.le_bound found)

/-- A port of one's own choice is bound exactly if no socket is open there. -/
theorem bind_of_vacant (routed : network.Routed) {ip : IpAddress} {port : UInt16}
    (chosen : port ≠ 0) (vacant : network.Vacant { ip, port }) :
    network.bind ip port = .ok (network.occupy { ip, port }) := by
  rw [bind, if_neg chosen, routed.contains_eq_false_iff.mpr vacant]
  rfl

theorem bind_of_holds (routed : network.Routed) {ip : IpAddress} {port : UInt16}
    (chosen : port ≠ 0) (taken : ∃ binding, network.Holds binding { ip, port }) :
    network.bind ip port = .error (.inUse { ip, port }) := by
  rw [bind, if_neg chosen, routed.contains_iff.mpr taken]
  rfl

/-- The port that the search ends with is vacant. -/
theorem contains_of_freePort {ip : IpAddress} {found : UInt16} :
    ∀ {tries : Nat} {port : UInt16}, network.freePort ip tries port = some found →
      network.routes.contains { ip, port := found } = false
  | 0, _, ended => by cases ended
  | tries + 1, port, ended => by
      unfold freePort at ended
      simp only at ended
      split at ended
      · exact contains_of_freePort ended
      · rename_i vacant
        cases ended
        exact Bool.not_eq_true _ ▸ vacant

/-- Whatever port is asked for, a socket is bound at a vacant address, and only the cursor
of the search may move besides. -/
theorem bind_eq_ok (routed : network.Routed) {ip : IpAddress} {port : UInt16}
    (bound : network.bind ip port = .ok (opened, after)) :
    ∃ lastPort chosen, network.Vacant { ip, port := chosen } ∧
      (opened, after) = { network with lastPort }.occupy { ip, port := chosen } := by
  unfold bind at bound
  split at bound
  · split at bound
    · cases bound
    · rename_i chosen found
      cases bound
      exact ⟨chosen, chosen, routed.contains_eq_false_iff.mp (contains_of_freePort found), rfl⟩
  · split at bound
    · cases bound
    · rename_i vacant
      cases bound
      exact
        ⟨network.lastPort, port,
          routed.contains_eq_false_iff.mp (Bool.not_eq_true _ ▸ vacant), rfl⟩

theorem Routed.cursor (routed : network.Routed) (lastPort : UInt16) :
    { network with lastPort }.Routed :=
  ⟨routed.routes_iff, routed.le_bound⟩

theorem Routed.bind (routed : network.Routed) {ip : IpAddress} {port : UInt16}
    (bound : network.bind ip port = .ok (opened, after)) : after.Routed := by
  obtain ⟨lastPort, chosen, vacant, same⟩ := bind_eq_ok routed bound
  rw [(Prod.mk.inj same).2]
  exact (routed.cursor lastPort).occupy vacant

theorem inbox_bind (routed : network.Routed) {ip : IpAddress} {port : UInt16}
    (bound : network.bind ip port = .ok (opened, after)) :
    after.inbox other = network.inbox other := by
  obtain ⟨lastPort, chosen, _, same⟩ := bind_eq_ok routed bound
  rw [(Prod.mk.inj same).2]
  exact inbox_occupy (routed.cursor lastPort)

/-! ## Shutting down -/

theorem sockets_shutdown :
    (network.shutdown binding).sockets[other]? =
      if binding = other then
        network.sockets[other]?.map fun socket => { socket with isOpen := false }
      else
        network.sockets[other]? := by
  unfold shutdown
  cases found : network.sockets[binding]? with
  | none =>
      by_cases same : binding = other
      · subst same
        simp [found]
      · simp [same]
  | some socket =>
      by_cases same : binding = other
      · subst same
        simp [found]
      · simp [Std.HashMap.getElem?_insert, same]

/-- Only the socket itself is closed. -/
theorem holds_shutdown_iff :
    (network.shutdown binding).Holds other address ↔
      other ≠ binding ∧ network.Holds other address := by
  unfold Holds
  rw [sockets_shutdown]
  by_cases same : binding = other
  · subst same
    simp
  · simp [same, Ne.symm same]

/-- Only the route to the socket itself is removed. -/
theorem routes_shutdown (routed : network.Routed) :
    (network.shutdown binding).routes[address]? =
      if network.Holds binding address then none else network.routes[address]? := by
  unfold shutdown
  cases found : network.sockets[binding]? with
  | none =>
      have absent : ¬ network.Holds binding address := by simp [Holds, found]
      rw [if_neg absent]
  | some socket =>
      have holds_iff (destination : SocketAddress) :
          network.Holds binding destination ↔
            socket.isOpen = true ∧ socket.address = destination := by
        simp [Holds, found]
      simp only [holds_iff]
      by_cases isOpen : socket.isOpen = true
      · have route : network.routes[socket.address]? = some binding :=
          routed.routes_iff.mpr ((holds_iff _).mpr ⟨isOpen, rfl⟩)
        simp [isOpen, route, Std.HashMap.getElem?_erase]
      · simp [isOpen]

theorem inbox_shutdown : (network.shutdown binding).inbox other = network.inbox other := by
  unfold inbox
  rw [sockets_shutdown]
  split
  · cases network.sockets[other]? <;> rfl
  · rfl

theorem bound_shutdown : (network.shutdown binding).bound = network.bound := by
  unfold shutdown
  split <;> rfl

theorem killed_shutdown : (network.shutdown binding).killed = network.killed := by
  unfold shutdown
  split <;> rfl

theorem loss_shutdown : (network.shutdown binding).loss = network.loss := by
  unfold shutdown
  split <;> rfl

theorem Routed.shutdown (routed : network.Routed) : (network.shutdown binding).Routed where
  routes_iff {destination opened} := by
    rw [holds_shutdown_iff, routes_shutdown routed]
    by_cases holds : network.Holds binding destination
    · rw [if_pos holds]
      have unheld : ¬ (opened ≠ binding ∧ network.Holds opened destination) :=
        fun ⟨different, another⟩ => different (routed.unique another holds)
      simp [unheld]
    · rw [if_neg holds, routed.routes_iff]
      exact ⟨fun another => ⟨fun same => holds (same ▸ another), another⟩, And.right⟩
  le_bound {opened socket} found := by
    rw [sockets_shutdown] at found
    rw [bound_shutdown]
    split at found
    · obtain ⟨before, foundBefore, _⟩ := Option.map_eq_some_iff.mp found
      exact routed.le_bound foundBefore
    · exact routed.le_bound found

/-! ## Moving datagrams -/

/-- Where a socket is, and whether it is open. -/
def place? (network : Network) (binding : Binding) : Option (SocketAddress × Bool) :=
  network.sockets[binding]?.map fun socket => (socket.address, socket.isOpen)

private theorem holds_iff_place? :
    network.Holds binding address ↔ network.place? binding = some (address, true) := by
  simp [Holds, place?, Option.map_eq_some_iff, and_comm]

/-- Datagrams may have moved, and no socket was opened or closed. -/
structure SameSockets (before after : Network) : Prop where
  routes_eq : after.routes = before.routes
  bound_eq : after.bound = before.bound
  place?_eq : ∀ binding, after.place? binding = before.place? binding

theorem SameSockets.refl (network : Network) : SameSockets network network :=
  ⟨rfl, rfl, fun _ => rfl⟩

theorem SameSockets.holds_iff (same : SameSockets network after) :
    after.Holds binding address ↔ network.Holds binding address := by
  rw [holds_iff_place?, holds_iff_place?, same.place?_eq]

theorem SameSockets.routed (same : SameSockets network after) (routed : network.Routed) :
    after.Routed where
  routes_iff {address binding} := by
    rw [same.routes_eq, same.holds_iff]
    exact routed.routes_iff
  le_bound {opened socket} found := by
    have place := same.place?_eq opened
    rw [place?, found, Option.map_some] at place
    obtain ⟨before, foundBefore, _⟩ := Option.map_eq_some_iff.mp place.symm
    rw [same.bound_eq]
    exact routed.le_bound foundBefore

private theorem sameSockets_deposit (network : Network) (destination : SocketAddress)
    (datagram : Datagram) : SameSockets network (network.deposit destination datagram) := by
  unfold deposit
  split
  · exact .refl network
  · rename_i target _
    refine ⟨rfl, rfl, fun binding => ?_⟩
    simp only [place?, Std.HashMap.getElem?_modify, beq_iff_eq]
    split
    · rename_i same
      subst same
      cases network.sockets[target]? <;> rfl
    · rfl

/-- A datagram comes to the end of the inbox of the socket that is open at its destination,
and of no other. -/
private theorem inbox_deposit (routed : network.Routed) :
    (network.deposit address datagram).inbox other =
      network.inbox other ++ if network.Holds other address then [datagram] else [] := by
  unfold deposit
  cases route : network.routes[address]? with
  | none =>
      rw [if_neg (routed.vacant_iff.mpr route other), List.append_nil]
  | some target =>
      have holds : network.Holds target address := routed.routes_iff.mp route
      have holds_iff : network.Holds other address ↔ target = other := by
        constructor
        · exact routed.unique holds
        · rintro rfl
          exact holds
      obtain ⟨socket, found, _⟩ := holds
      simp only [inbox, Std.HashMap.getElem?_modify, beq_iff_eq, holds_iff]
      split
      · rename_i same
        subst same
        simp [found]
      · simp

private theorem sameSockets_isLost (network : Network) (delivery : Delivery) :
    SameSockets network (network.isLost delivery).2 := by
  unfold isLost
  split <;> exact ⟨rfl, rfl, fun _ => rfl⟩

theorem SameSockets.trans {first second third : Network} (left : SameSockets first second)
    (right : SameSockets second third) : SameSockets first third where
  routes_eq := right.routes_eq.trans left.routes_eq
  bound_eq := right.bound_eq.trans left.bound_eq
  place?_eq binding := (right.place?_eq binding).trans (left.place?_eq binding)

theorem sameSockets_carry (network : Network) (source : SocketAddress) (parcel : Parcel) :
    SameSockets network (network.carry source parcel) := by
  unfold carry
  split
  · exact .refl network
  · cases drawn : network.isLost parcel.delivery with
    | mk lost rest =>
        have same := sameSockets_isLost network parcel.delivery
        rw [drawn] at same
        simp only
        split
        · exact same
        · exact same.trans (sameSockets_deposit rest _ _)

private theorem isLost_of_loss_eq_zero (lossless : network.loss = 0) (delivery : Delivery) :
    network.isLost delivery = (false, network) := by
  rw [isLost, if_pos (Or.inr lossless)]

/-- Nobody keeps the two addresses from talking. -/
def Connects (network : Network) (source destination : SocketAddress) : Prop :=
  source ∉ network.killed ∧ destination ∉ network.killed

instance {source destination : SocketAddress} :
    Decidable (network.Connects source destination) :=
  inferInstanceAs (Decidable (_ ∧ _))

/-- Without loss a parcel comes to the socket that is open at its destination, unless one
of the two addresses is killed. -/
theorem inbox_carry (routed : network.Routed) (lossless : network.loss = 0)
    {source : SocketAddress} {parcel : Parcel} :
    (network.carry source parcel).inbox other =
      network.inbox other ++
        if network.Connects source parcel.destination ∧
            network.Holds other parcel.destination then
          [{ payload := parcel.payload, sender := source }]
        else [] := by
  unfold carry
  by_cases connects : network.Connects source parcel.destination
  · have alive : ¬ (source ∈ network.killed ∨ parcel.destination ∈ network.killed) :=
      not_or.mpr connects
    simp only [if_neg alive, isLost_of_loss_eq_zero lossless, connects, true_and]
    exact inbox_deposit routed
  · have dead : source ∈ network.killed ∨ parcel.destination ∈ network.killed := by
      by_contra alive
      exact connects (not_or.mp alive)
    simp [dead, connects]

/-- An open socket can send. -/
theorem send_of_holds (holds : network.Holds binding address) (parcel : Parcel) :
    network.send binding parcel = .ok (network.carry address parcel) := by
  obtain ⟨socket, found, isOpen, rfl⟩ := holds
  rw [send, found]
  exact if_pos isOpen

theorem holds_of_send {parcel : Parcel} (sent : network.send binding parcel = .ok after) :
    ∃ address, network.Holds binding address ∧ after = network.carry address parcel := by
  unfold send at sent
  split at sent
  · rename_i socket found
    split at sent
    · rename_i isOpen
      cases sent
      exact ⟨socket.address, ⟨socket, found, isOpen, rfl⟩, rfl⟩
    · cases sent
  · cases sent

/-- The oldest datagram of an inbox is taken out of it. -/
theorem receive_eq_ok {taken : Option Datagram}
    (received : network.receive binding = .ok (taken, after)) :
    SameSockets network after ∧ after.loss = network.loss ∧
      ∀ other, network.inbox other =
        (if other = binding then taken.toList else []) ++ after.inbox other := by
  unfold receive at received
  split at received
  · rename_i socket found
    split at received
    · split at received
      · rename_i empty
        cases received
        exact ⟨.refl network, rfl, fun other => by simp⟩
      · rename_i first rest full
        cases received
        refine ⟨⟨rfl, rfl, fun other => ?_⟩, rfl, fun other => ?_⟩
        · simp only [place?, Std.HashMap.getElem?_insert, beq_iff_eq]
          split
          · rename_i same
            subst same
            rw [found]
            rfl
          · rfl
        · simp only [inbox, Std.HashMap.getElem?_insert, beq_iff_eq]
          by_cases same : other = binding
          · subst same
            simp [found, full]
          · simp [same, Ne.symm same]
    · cases received
  · cases received

end Network

end Roster
