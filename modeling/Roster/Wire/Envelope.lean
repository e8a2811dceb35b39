import Roster.Wire.Format

/-!
# Envelopes as datagrams

An envelope is written field by field.  It must fit into one datagram.  When a
datagram is read, bytes after the envelope are ignored.
-/

namespace Roster.Wire

namespace Format

def replica : Format ReplicaId :=
  word.convert ReplicaId.mk ReplicaId.value

def endpoint : Format Endpoint :=
  (pair text (pair port word)).convert
    (fun (address, port, incarnation) => { address, port, incarnation })
    (fun endpoint => (endpoint.address, endpoint.port, endpoint.incarnation))

def update : Format Update :=
  (pair text bytes).convert
    (fun (uri, delta) => { uri, delta })
    (fun update => (update.uri, update.delta))

def gossipId : Format GossipId :=
  (pair replica word).convert
    (fun (origin, sequence) => { origin, sequence })
    (fun id => (id.origin, id.sequence))

def variant : Format Nat :=
  number 4

def payload : Format Payload where
  write
    | .suspect target suspector =>
        variant.write 0 ++ (pair endpoint endpoint).write (target, suspector)
    | .alive subject => variant.write 1 ++ endpoint.write subject
    | .delta content => variant.write 2 ++ update.write content
  read input := do
    let (chosen, input) ← variant.read input
    match chosen with
    | 0 =>
        let ((target, suspector), rest) ← (pair endpoint endpoint).read input
        return (.suspect target suspector, rest)
    | 1 =>
        let (subject, rest) ← endpoint.read input
        return (.alive subject, rest)
    | 2 =>
        let (content, rest) ← update.read input
        return (.delta content, rest)
    | _ => throw (.unknownVariant chosen 3)

def gossip : Format Gossip :=
  (pair gossipId payload).convert
    (fun (id, payload) => { id, payload })
    (fun gossip => (gossip.id, gossip.payload))

def exchangeKind : Format ExchangeKind where
  write
    | .join => variant.write 0
    | .heal => variant.write 1
  read input := do
    let (chosen, rest) ← variant.read input
    match chosen with
    | 0 => return (.join, rest)
    | 1 => return (.heal, rest)
    | _ => throw (.unknownVariant chosen 2)

/-- A probe: its number and its target. -/
def probe : Format (UInt64 × Endpoint) :=
  pair word endpoint

def message : Format Message where
  write
    | .ping sequence target => variant.write 0 ++ probe.write (sequence, target)
    | .ack sequence => variant.write 1 ++ word.write sequence
    | .pingRequest sequence target => variant.write 2 ++ probe.write (sequence, target)
    | .indirectAck sequence target alive =>
        variant.write 3 ++ (pair probe flag).write ((sequence, target), alive)
    | .join digest updates =>
        variant.write 4 ++ (pair (map bytes) (map bytes)).write (digest, updates)
    | .heal digest => variant.write 5 ++ (map bytes).write digest
    | .exchange kind response request =>
        variant.write 6 ++
          (pair exchangeKind (pair (map bytes) (map bytes))).write (kind, response, request)
    | .response updates => variant.write 7 ++ (map bytes).write updates
    | .store content => variant.write 8 ++ update.write content
    | .gossip => variant.write 9
  read input := do
    let (chosen, input) ← variant.read input
    match chosen with
    | 0 =>
        let ((sequence, target), rest) ← probe.read input
        return (.ping sequence target, rest)
    | 1 =>
        let (sequence, rest) ← word.read input
        return (.ack sequence, rest)
    | 2 =>
        let ((sequence, target), rest) ← probe.read input
        return (.pingRequest sequence target, rest)
    | 3 =>
        let (((sequence, target), alive), rest) ← (pair probe flag).read input
        return (.indirectAck sequence target alive, rest)
    | 4 =>
        let ((digest, updates), rest) ← (pair (map bytes) (map bytes)).read input
        return (.join digest updates, rest)
    | 5 =>
        let (digest, rest) ← (map bytes).read input
        return (.heal digest, rest)
    | 6 =>
        let ((kind, response, request), rest) ←
          (pair exchangeKind (pair (map bytes) (map bytes))).read input
        return (.exchange kind response request, rest)
    | 7 =>
        let (updates, rest) ← (map bytes).read input
        return (.response updates, rest)
    | 8 =>
        let (content, rest) ← update.read input
        return (.store content, rest)
    | 9 => return (.gossip, input)
    | _ => throw (.unknownVariant chosen 10)

def envelope : Format Envelope :=
  (pair text (pair endpoint (pair message (list gossip)))).convert
    (fun (env, sender, message, gossip) => { env, sender, message, gossip })
    (fun envelope => (envelope.env, envelope.sender, envelope.message, envelope.gossip))

end Format

/-- The bytes that fit into one datagram. -/
def datagramLimit : Nat :=
  65507

end Roster.Wire

namespace Roster.Envelope

/-- An envelope whose bytes do not fit into a datagram. -/
structure TooLarge where
  size : Nat
  deriving DecidableEq, Repr

def TooLarge.message (fault : TooLarge) : String :=
  "Envelope too large: " ++ toString fault.size ++ " bytes"

def toBytes (envelope : Envelope) : Bytes :=
  Wire.Format.envelope.write envelope

def encode (envelope : Envelope) : Except TooLarge Bytes :=
  let bytes := envelope.toBytes
  if bytes.length ≤ Wire.datagramLimit then .ok bytes else .error ⟨bytes.length⟩

def decode (datagram : Bytes) : Except Wire.Fault Envelope :=
  (Wire.Format.envelope.read datagram).map (·.1)

def decodeMessage (fault : Wire.Fault) : String :=
  "Failed to decode envelope: " ++ fault.message

end Roster.Envelope
