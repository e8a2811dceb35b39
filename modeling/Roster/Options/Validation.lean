import Roster.Options
import Roster.Address.Reader
import Roster.Text

/-!
# Validation of options

Options are checked before anything is bound or started.  The first fault in
a fixed order is reported: the bind address first, then the fields in the
order of `Options`.
-/

namespace Roster

namespace Options

/-- What is wrong with a set of options, or with the document they come
from. -/
inductive Fault where
  | emptyBindAddress
  | wildcardBindAddress (address : String)
  | invalidBindAddress (address : String)
  | invalid (field reason : String)
  | unreadableFile
  | malformedDocument
  deriving DecidableEq, Repr

/-- The wording of a fault; that of an unreadable file or a malformed document
is not fixed. -/
def Fault.message? : Fault → Option String
  | .emptyBindAddress => some "Bind address must not be empty"
  | .wildcardBindAddress address =>
      some ("Bind address must not be a wildcard address: " ++ address)
  | .invalidBindAddress address => some ("Invalid bind address: " ++ address)
  | .invalid field reason => some ("Invalid value for " ++ field ++ ": " ++ reason)
  | .unreadableFile => none
  | .malformedDocument => none

/-- The address to bind; white space around it is ignored. -/
def bindIp (options : Options) : Except Fault IpAddress :=
  let address := Text.trim options.addr.toList
  if address.isEmpty then
    .error .emptyBindAddress
  else
    match IpAddress.ofChars? address with
    | none => .error (.invalidBindAddress (String.ofList address))
    | some ip =>
        if ip.isUnspecified then
          .error (.wildcardBindAddress (String.ofList address))
        else
          .ok ip

def bindAddress (options : Options) : Except Fault SocketAddress :=
  options.bindIp.map fun ip => { ip, port := options.port }

/-- Report a fault of a field unless its condition holds. -/
private def require (holds : Bool) (field reason : String) : Except Fault Unit :=
  if holds then .ok () else .error (.invalid field reason)

/-- Accept the options or report their first fault. -/
def validate (options : Options) : Except Fault Unit := do
  let _ ← options.bindIp
  require (options.env ≠ "") "env" "must not be empty"
  require (options.gossipFanout ≠ 0) "gossip_fanout" "must be at least 1"
  require (options.gossipPerEnvelope ≠ 0) "gossip_fanout_per_period" "must be at least 1"
  require (options.gossipPeriod ≠ 0) "gossip_period_ms" "must be positive"
  require (options.retransmitMultiplier ≠ 0) "retransmit_multiplier" "must be at least 1"
  require (options.healthCeiling ≠ 0) "awareness_max_multiplier" "must be at least 1"
  require (options.probeTimeout ≠ 0) "base_probe_timeout_ms" "must be positive"
  require (options.probeTimeout < options.probeInterval) "base_probe_timeout_ms"
    ("must be below base_probe_interval_ms (" ++ toString options.probeInterval ++ ")")
  require (options.suspicionMultiplier ≠ 0) "suspicion_multiplier" "must be at least 1"
  require (options.suspicionCeiling ≠ 0) "suspicion_max_timeout_multiplier" "must be at least 1"
  require (options.healingInterval ≠ 0) "auto_healing_interval_ms" "must be positive"
  require (options.healingTimeout ≠ 0) "auto_healing_timeout_ms" "must be positive"
  require (options.joinTimeout ≠ 0) "join_timeout_ms" "must be positive"

end Options

end Roster
