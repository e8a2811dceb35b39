import Roster.Chance
import Roster.Endpoint

/-!
# The rotation of members

This is the `MemberSelector`, which picks whom to probe and whom to send
gossip.  Members are visited one after another in a random order.  At the end
of a pass the order is shuffled and the next pass begins.  A new member is put
anywhere into what remains of the current pass, so in the long run all are
visited equally often.
-/

namespace Roster

/-- The members of the current pass, visited and still ahead. -/
structure Rotation where
  visited : List Endpoint := []
  ahead : List Endpoint := []
  chance : Chance

namespace Rotation

def members (rotation : Rotation) : List Endpoint :=
  rotation.visited ++ rotation.ahead

def size (rotation : Rotation) : Nat :=
  rotation.members.length

/-- Put a member anywhere ahead unless it is there already. -/
def enter (rotation : Rotation) (member : Endpoint) : Rotation :=
  if member ∈ rotation.members then
    rotation
  else
    let (ahead, chance) := Chance.insertAnywhere member rotation.ahead rotation.chance
    { rotation with ahead, chance }

/-- Follow the membership: drop who left and enter who is new. -/
def refresh (rotation : Rotation) (current : List Endpoint) : Rotation :=
  let kept : Rotation :=
    { rotation with
      visited := rotation.visited.filter (· ∈ current)
      ahead := rotation.ahead.filter (· ∈ current) }
  current.foldl enter kept

/-- Visit the next member, in a new pass if the current one is over. -/
def advance (rotation : Rotation) : Option Endpoint × Rotation :=
  match rotation.ahead with
  | member :: ahead =>
      (some member, { rotation with visited := rotation.visited ++ [member], ahead })
  | [] =>
      let (shuffled, chance) := Chance.shuffle rotation.visited rotation.chance
      match shuffled with
      | member :: ahead => (some member, { visited := [member], ahead, chance })
      | [] => (none, rotation)

/-- Visit up to `steps` members and pick up to `count` of them, each at most
once: those that are not excluded and whose address is found. -/
def pick (resolve : Endpoint → Option SocketAddress) (excluded : List Endpoint) :
    Nat → Nat → List Endpoint → Rotation → List (Endpoint × SocketAddress) × Rotation
  | 0, _, _, rotation => ([], rotation)
  | _, 0, _, rotation => ([], rotation)
  | steps + 1, count + 1, seen, rotation =>
      match rotation.advance with
      | (none, rotation) => ([], rotation)
      | (some member, rotation) =>
          if member ∈ excluded ∨ member ∈ seen then
            pick resolve excluded steps (count + 1) seen rotation
          else
            match resolve member with
            | none => pick resolve excluded steps (count + 1) (member :: seen) rotation
            | some address =>
                let (picked, rotation) :=
                  pick resolve excluded steps count (member :: seen) rotation
                ((member, address) :: picked, rotation)

/-- Up to `count` members that are not excluded, with the addresses that are
found for them. -/
def selectBy (resolve : Endpoint → Option SocketAddress) (rotation : Rotation)
    (count : Nat) (excluded : List Endpoint) : List (Endpoint × SocketAddress) × Rotation :=
  pick resolve excluded (2 * rotation.size) count [] rotation

/-- Up to `count` members that are not excluded and can be dialled, with their
addresses. -/
def select (rotation : Rotation) (count : Nat) (excluded : List Endpoint) :
    List (Endpoint × SocketAddress) × Rotation :=
  rotation.selectBy Endpoint.socketAddress? count excluded

end Rotation

end Roster
