import Roster.Options
import Roster.Address
import Roster.Arithmetic
import Roster.SortedMap

/-!
# The join loop

This is the `AutoSeeder`.  A join contacts every seed at once and is complete
on the first answer.  If none comes before the timeout, all seeds seen so far
are contacted again after a delay, until one answers or the loop is stopped.
A join that is asked for while another is pending shares its attempt.
-/

namespace Roster

inductive JoinPhase where
  | idle
  | attempting (deadline : Nat)
  | waiting (retryAt : Nat)
  | joined
  | stopped
  deriving DecidableEq, Repr

inductive JoinStart where
  | contact (seeds : List SocketAddress)
  | coalesced
  | complete
  | stopped
  deriving DecidableEq, Repr

/-- What the passing of time asks for. -/
inductive JoinStep where
  | contact (seeds : List SocketAddress)
  | retryingAt (instant : Nat)
  deriving DecidableEq, Repr

structure Joining where
  own : SocketAddress
  timeout : Nat
  delay : Nat
  seeds : SortedSet SocketAddress := SortedMap.empty
  phase : JoinPhase := .idle

namespace Joining

/-- The delay is kept as a word of milliseconds. -/
def new (own : SocketAddress) (options : Options) : Joining :=
  { own
    timeout := options.joinTimeout.toNat
    delay := options.joinRetrySeconds.toNat * 1000 % Word.bound }

/-- An attempt is out, or waits for its retry. -/
def isPending (joining : Joining) : Bool :=
  match joining.phase with
  | .attempting _ | .waiting _ => true
  | _ => false

def isStopped (joining : Joining) : Bool :=
  joining.phase = .stopped

/-- Ask to join through seeds; the own address is none. -/
def join (joining : Joining) (seeds : List SocketAddress) (now : Nat) :
    Except Overflow (JoinStart × Joining) := do
  if joining.isStopped then
    return (.stopped, joining)
  let requested := (SortedSet.ofList (seeds.filter (· ≠ joining.own))).keys
  let fresh := requested.filter fun seed => !joining.seeds.contains seed
  let joining := { joining with seeds := requested.foldl SortedSet.add joining.seeds }
  if joining.isPending then
    return (if fresh.isEmpty then .coalesced else .contact fresh, joining)
  if requested.isEmpty then
    return (.complete, joining)
  let deadline ← Word.add now joining.timeout
  return (.contact requested, { joining with phase := .attempting deadline })

/-- A seed answered: whether this completes a pending join. -/
def respond (joining : Joining) : Bool × Joining :=
  if joining.isPending then
    (true, { joining with phase := .joined })
  else
    (false, joining)

def check (joining : Joining) (now : Nat) : Except Overflow (Option JoinStep × Joining) := do
  match joining.phase with
  | .attempting deadline =>
      if now < deadline then
        return (none, joining)
      let retryAt ← Word.add now joining.delay
      return (some (.retryingAt retryAt), { joining with phase := .waiting retryAt })
  | .waiting retryAt =>
      if now < retryAt then
        return (none, joining)
      let deadline ← Word.add now joining.timeout
      return (some (.contact joining.seeds.keys), { joining with phase := .attempting deadline })
  | _ => return (none, joining)

def seedAt (joining : Joining) (choice : Nat) : Option SocketAddress :=
  joining.seeds.keys[choice % joining.seeds.size]?

/-- Stop for good: whether a join was pending. -/
def stop (joining : Joining) : Bool × Joining :=
  (joining.isPending, { joining with phase := .stopped })

end Joining

end Roster
