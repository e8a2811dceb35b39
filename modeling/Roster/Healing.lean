import Roster.Options
import Roster.Address
import Roster.Arithmetic

/-!
# The healing loop

This is the `AutoHealer`.  At every interval one peer is asked what it has
that we lack.  One exchange is out at a time; while it is, rounds are skipped,
and after the timeout it is given up.  The first round comes one interval
after the first tick.
-/

namespace Roster

/-- An exchange that was not answered yet. -/
structure HealingExchange where
  peer : SocketAddress
  deadline : Nat
  deriving DecidableEq, Repr

structure Healing where
  interval : Nat
  timeout : Nat
  next : Option Nat := none
  exchange : Option HealingExchange := none
  stopped : Bool := false
  deriving DecidableEq, Repr

namespace Healing

def new (options : Options) : Healing :=
  { interval := options.healingInterval.toNat
    timeout := options.healingTimeout.toNat }

/-- Give up an exchange whose deadline has come. -/
def expire (healing : Healing) (now : Nat) : Healing :=
  { healing with exchange := healing.exchange.filter fun exchange => now < exchange.deadline }

/-- Whether a new exchange should start now. -/
def tick (healing : Healing) (now : Nat) : Except Overflow (Bool × Healing) := do
  if healing.stopped then
    return (false, healing)
  let healing := healing.expire now
  let following ← Word.add now healing.interval
  let due := healing.next.getD following
  if now < due then
    return (false, { healing with next := some due })
  else
    return (healing.exchange.isNone, { healing with next := some following })

def begin (healing : Healing) (peer : SocketAddress) (now : Nat) :
    Except Overflow Healing := do
  let deadline ← Word.add now healing.timeout
  return { healing with exchange := some { peer, deadline } }

/-- A peer answered: whether its exchange was out. -/
def complete (healing : Healing) (peer : SocketAddress) : Bool × Healing :=
  if healing.exchange.any (·.peer = peer) then
    (true, { healing with exchange := none })
  else
    (false, healing)

def isPending (healing : Healing) : Bool :=
  healing.exchange.isSome

/-- Start no further exchange. -/
def stop (healing : Healing) : Healing :=
  { healing with exchange := none, stopped := true }

end Healing

end Roster
