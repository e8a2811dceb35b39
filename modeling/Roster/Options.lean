/-!
# Options of a host

These are the `AgentHostOptions`.  Every option has a default.  Delays are in
milliseconds unless the name says seconds.

Every option has a name under which a document or a request sets it.  Its
setting says what values it takes and how it is read and replaced.
-/

namespace Roster

structure Options where
  env : String := "dev"
  addr : String := "127.0.0.1"
  port : UInt16 := 0
  gossipFanout : UInt64 := 4
  gossipPerEnvelope : UInt64 := 4
  gossipPeriod : UInt64 := 200
  retransmitMultiplier : UInt32 := 4
  healthCeiling : UInt32 := 8
  probeInterval : UInt64 := 1000
  probeTimeout : UInt64 := 500
  indirectProbes : UInt64 := 3
  suspicionMultiplier : UInt32 := 4
  suspicionCeiling : UInt32 := 6
  healingInterval : UInt64 := 5000
  healingTimeout : UInt64 := 3000
  joinTimeout : UInt64 := 5000
  joinRetrySeconds : UInt64 := 5
  deriving DecidableEq, Inhabited, Repr

namespace Options

/-- The interval of the tick that drives every loop of a host: the gossip
period or a fifth of the probe timeout, and never under five milliseconds. -/
def tickInterval (options : Options) : Nat :=
  max (min options.gossipPeriod.toNat (max (options.probeTimeout.toNat / 5) 5)) 5

/-- How one option is read and replaced: a text, or a number below a bound. -/
inductive Setting where
  | text (get : Options → String) (set : Options → String → Options)
  | number (bound : Nat) (get : Options → Nat) (set : Options → Nat → Options)

namespace Setting

/-- The option is a number of 32 bits. -/
def half (get : Options → UInt32) (set : Options → UInt32 → Options) : Setting :=
  .number UInt32.size (fun options => (get options).toNat) fun options value =>
    set options (UInt32.ofNat value)

/-- The option is a number of 64 bits. -/
def word (get : Options → UInt64) (set : Options → UInt64 → Options) : Setting :=
  .number UInt64.size (fun options => (get options).toNat) fun options value =>
    set options (UInt64.ofNat value)

end Setting

/-- The options by name, in the order of `Options`. -/
def settings : List (String × Setting) :=
  [("env", .text (·.env) fun options env => { options with env }),
    ("addr", .text (·.addr) fun options addr => { options with addr }),
    ("port", .number UInt16.size (·.port.toNat) fun options value =>
      { options with port := UInt16.ofNat value }),
    ("gossip_fanout", .word (·.gossipFanout) fun options gossipFanout =>
      { options with gossipFanout }),
    ("gossip_fanout_per_period", .word (·.gossipPerEnvelope) fun options gossipPerEnvelope =>
      { options with gossipPerEnvelope }),
    ("gossip_period_ms", .word (·.gossipPeriod) fun options gossipPeriod =>
      { options with gossipPeriod }),
    ("retransmit_multiplier", .half (·.retransmitMultiplier) fun options retransmitMultiplier =>
      { options with retransmitMultiplier }),
    ("awareness_max_multiplier", .half (·.healthCeiling) fun options healthCeiling =>
      { options with healthCeiling }),
    ("base_probe_interval_ms", .word (·.probeInterval) fun options probeInterval =>
      { options with probeInterval }),
    ("base_probe_timeout_ms", .word (·.probeTimeout) fun options probeTimeout =>
      { options with probeTimeout }),
    ("indirect_probes", .word (·.indirectProbes) fun options indirectProbes =>
      { options with indirectProbes }),
    ("suspicion_multiplier", .half (·.suspicionMultiplier) fun options suspicionMultiplier =>
      { options with suspicionMultiplier }),
    ("suspicion_max_timeout_multiplier",
      .half (·.suspicionCeiling) fun options suspicionCeiling =>
        { options with suspicionCeiling }),
    ("auto_healing_interval_ms", .word (·.healingInterval) fun options healingInterval =>
      { options with healingInterval }),
    ("auto_healing_timeout_ms", .word (·.healingTimeout) fun options healingTimeout =>
      { options with healingTimeout }),
    ("join_timeout_ms", .word (·.joinTimeout) fun options joinTimeout =>
      { options with joinTimeout }),
    ("join_retry_in_sec", .word (·.joinRetrySeconds) fun options joinRetrySeconds =>
      { options with joinRetrySeconds })]

end Options

end Roster
