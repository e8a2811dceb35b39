import Roster.Proofs.Wire.Lawful
import Roster.Wire.Envelope

/-!
# Envelopes read back

The format of every part of an envelope is lawful, so a datagram yields the
envelope it was made of, whatever bytes follow it, and no proper front part of
it yields any.
-/

namespace Roster.Wire.Format

variable {α β : Type}

private theorem lawful_replica : replica.Lawful :=
  lawful_word.convert fun _ => rfl

theorem lawful_endpoint : endpoint.Lawful :=
  (lawful_text.pair (lawful_port.pair lawful_word)).convert fun _ => rfl

theorem lawful_update : update.Lawful :=
  (lawful_text.pair lawful_bytes).convert fun _ => rfl

private theorem lawful_gossipId : gossipId.Lawful :=
  (lawful_replica.pair lawful_word).convert fun _ => rfl

private theorem lawful_probe : probe.Lawful :=
  lawful_word.pair lawful_endpoint

/-- The contents of two maps, and of one. -/
private theorem lawful_documents : (map bytes).Lawful :=
  lawful_bytes.map

/-! ## Choices -/

theorem steady_variant : Reader.Steady variant.read :=
  steady_number 4

/-- The variants of a choice are few. -/
theorem read_variant {number : Nat} (few : number < 10) (input : Bytes) :
    variant.read (variant.write number ++ input) = .ok (number, input) :=
  number_readsBack (Nat.lt_trans few (by decide)) input

/-- A choice that is written as the number of its variant and one part is read
back if its reader goes on, after that number, with the part. -/
private theorem readsBack_of_part {format : Format β} {part : Format α} {value : β} (number : Nat)
    (build : α → β) (content : α) (lawful : part.Lawful)
    (short : (format.write value).length < Word.bound)
    (written : format.write value = variant.write number ++ part.write content)
    (rebuilt : build content = value)
    (reads :
      ∀ input, format.read (variant.write number ++ input) =
        part.read input >>= fun result => .ok (build result.1, result.2)) :
    format.ReadsBack value := by
  intro rest
  have shortPart : (part.write content).length < Word.bound := by
    rw [written, List.length_append] at short
    omega
  rw [written, List.append_assoc, reads, lawful.readsBack content shortPart rest,
    Attempt.ok_bind, rebuilt]

private theorem lawful_payload : payload.Lawful where
  steady := by
    intro input rest value read more
    obtain ⟨⟨chosen, content⟩, readChosen, readContent⟩ := Attempt.bind_eq_ok read
    simp only [payload, steady_variant readChosen more, Attempt.ok_bind]
    simp only at readContent
    split at readContent
    · exact
        ((lawful_endpoint.pair lawful_endpoint).steady.bind fun both =>
          Reader.steady_return (Payload.suspect both.1 both.2)) readContent more
    · exact (lawful_endpoint.steady.bind fun _ => Reader.steady_return _) readContent more
    · exact (lawful_update.steady.bind fun _ => Reader.steady_return _) readContent more
    · cases readContent
  readsBack value short := by
    cases value with
    | suspect target suspector =>
        refine
          readsBack_of_part 0 (fun both => .suspect both.1 both.2) (target, suspector)
            (lawful_endpoint.pair lawful_endpoint) short rfl rfl fun input => ?_
        simp only [payload, read_variant (show 0 < 10 by decide), Attempt.ok_bind]
        rfl
    | alive subject =>
        refine readsBack_of_part 1 .alive subject lawful_endpoint short rfl rfl fun input => ?_
        simp only [payload, read_variant (show 1 < 10 by decide), Attempt.ok_bind]
        rfl
    | delta content =>
        refine readsBack_of_part 2 .delta content lawful_update short rfl rfl fun input => ?_
        simp only [payload, read_variant (show 2 < 10 by decide), Attempt.ok_bind]
        rfl
  write_ne_nil value := by
    cases value <;> exact List.cons_ne_nil _ _

private theorem lawful_gossip : gossip.Lawful :=
  (lawful_gossipId.pair lawful_payload).convert fun _ => rfl

private theorem lawful_exchangeKind : exchangeKind.Lawful where
  steady := by
    intro input rest value read more
    obtain ⟨⟨chosen, content⟩, readChosen, readContent⟩ := Attempt.bind_eq_ok read
    simp only [exchangeKind, steady_variant readChosen more, Attempt.ok_bind]
    simp only at readContent
    split at readContent
    · exact Reader.steady_return _ readContent more
    · exact Reader.steady_return _ readContent more
    · cases readContent
  readsBack value _ := by
    intro rest
    cases value with
    | join =>
        simp only [exchangeKind, read_variant (show 0 < 10 by decide), Attempt.ok_bind]
        rfl
    | heal =>
        simp only [exchangeKind, read_variant (show 1 < 10 by decide), Attempt.ok_bind]
        rfl
  write_ne_nil value := by
    cases value <;> exact List.cons_ne_nil _ _

private theorem steady_message : Reader.Steady message.read := by
  have maps := lawful_documents.pair lawful_documents
  intro input rest value read more
  obtain ⟨⟨chosen, content⟩, readChosen, readContent⟩ := Attempt.bind_eq_ok read
  simp only [message, steady_variant readChosen more, Attempt.ok_bind]
  simp only at readContent
  split at readContent
  · exact
      (lawful_probe.steady.bind fun both =>
        Reader.steady_return (Message.ping both.1 both.2)) readContent more
  · exact (lawful_word.steady.bind fun _ => Reader.steady_return _) readContent more
  · exact
      (lawful_probe.steady.bind fun both =>
        Reader.steady_return (Message.pingRequest both.1 both.2)) readContent more
  · exact
      ((lawful_probe.pair lawful_flag).steady.bind fun both =>
        Reader.steady_return (Message.indirectAck both.1.1 both.1.2 both.2)) readContent more
  · exact
      (maps.steady.bind fun both =>
        Reader.steady_return (Message.join both.1 both.2)) readContent more
  · exact (lawful_documents.steady.bind fun _ => Reader.steady_return _) readContent more
  · exact
      ((lawful_exchangeKind.pair maps).steady.bind fun both =>
        Reader.steady_return (Message.exchange both.1 both.2.1 both.2.2)) readContent more
  · exact (lawful_documents.steady.bind fun _ => Reader.steady_return _) readContent more
  · exact (lawful_update.steady.bind fun _ => Reader.steady_return _) readContent more
  · exact Reader.steady_return _ readContent more
  · cases readContent

private theorem lawful_message : message.Lawful where
  steady := steady_message
  readsBack value short := by
    have maps := lawful_documents.pair lawful_documents
    cases value with
    | ping sequence target =>
        refine
          readsBack_of_part 0 (fun both => .ping both.1 both.2) (sequence, target)
            lawful_probe short rfl rfl fun input => ?_
        simp only [message, read_variant (show 0 < 10 by decide), Attempt.ok_bind]
        rfl
    | ack sequence =>
        refine readsBack_of_part 1 .ack sequence lawful_word short rfl rfl fun input => ?_
        simp only [message, read_variant (show 1 < 10 by decide), Attempt.ok_bind]
        rfl
    | pingRequest sequence target =>
        refine
          readsBack_of_part 2 (fun both => .pingRequest both.1 both.2) (sequence, target)
            lawful_probe short rfl rfl fun input => ?_
        simp only [message, read_variant (show 2 < 10 by decide), Attempt.ok_bind]
        rfl
    | indirectAck sequence target alive =>
        refine
          readsBack_of_part 3 (fun both => .indirectAck both.1.1 both.1.2 both.2)
            ((sequence, target), alive) (lawful_probe.pair lawful_flag) short rfl rfl
            fun input => ?_
        simp only [message, read_variant (show 3 < 10 by decide), Attempt.ok_bind]
        rfl
    | join digest updates =>
        refine
          readsBack_of_part 4 (fun both => .join both.1 both.2) (digest, updates) maps short
            rfl rfl fun input => ?_
        simp only [message, read_variant (show 4 < 10 by decide), Attempt.ok_bind]
        rfl
    | heal digest =>
        refine readsBack_of_part 5 .heal digest lawful_documents short rfl rfl fun input => ?_
        simp only [message, read_variant (show 5 < 10 by decide), Attempt.ok_bind]
        rfl
    | exchange kind response request =>
        refine
          readsBack_of_part 6 (fun both => .exchange both.1 both.2.1 both.2.2)
            (kind, response, request) (lawful_exchangeKind.pair maps) short rfl rfl
            fun input => ?_
        simp only [message, read_variant (show 6 < 10 by decide), Attempt.ok_bind]
        rfl
    | response updates =>
        refine
          readsBack_of_part 7 .response updates lawful_documents short rfl rfl fun input => ?_
        simp only [message, read_variant (show 7 < 10 by decide), Attempt.ok_bind]
        rfl
    | store content =>
        refine readsBack_of_part 8 .store content lawful_update short rfl rfl fun input => ?_
        simp only [message, read_variant (show 8 < 10 by decide), Attempt.ok_bind]
        rfl
    | gossip =>
        intro rest
        simp only [message, read_variant (show 9 < 10 by decide), Attempt.ok_bind]
        rfl
  write_ne_nil value := by
    cases value <;> exact List.cons_ne_nil _ _

theorem lawful_envelope : envelope.Lawful :=
  (lawful_text.pair
    (lawful_endpoint.pair (lawful_message.pair lawful_gossip.list))).convert fun _ => rfl

end Roster.Wire.Format

namespace Roster.Envelope

open Wire (Format)

theorem encode_eq_ok_iff {envelope : Envelope} {datagram : Bytes} :
    envelope.encode = .ok datagram ↔
      envelope.toBytes = datagram ∧ envelope.toBytes.length ≤ Wire.datagramLimit := by
  unfold encode
  by_cases fits : envelope.toBytes.length ≤ Wire.datagramLimit
  · simp [fits]
  · simp [fits]

/-- A datagram's bytes are fewer than a word can count. -/
private theorem short_of_fits {envelope : Envelope}
    (fits : envelope.toBytes.length ≤ Wire.datagramLimit) :
    (Format.envelope.write envelope).length < Word.bound :=
  Nat.lt_of_le_of_lt fits (by decide)

theorem decode_of_yields {front : Bytes} {envelope : Envelope}
    (yields : Wire.Reader.Yields Format.envelope.read front envelope) (rest : Bytes) :
    decode (front ++ rest) = .ok envelope := by
  rw [decode, yields rest]
  rfl

/-- No proper front part of bytes that yield an envelope yields any. -/
theorem decode_of_isPrefix_of_yields {front shorter : Bytes} {envelope : Envelope}
    (yields : Wire.Reader.Yields Format.envelope.read front envelope)
    (isFront : shorter <+: front) (proper : shorter ≠ front) :
    ∃ fault, decode shorter = .error fault := by
  obtain ⟨fault, unread⟩ :=
    Format.lawful_envelope.steady.read_of_isPrefix yields isFront proper
  refine ⟨fault, ?_⟩
  simp only [decode, unread]
  rfl

/-- The datagram of an envelope yields it, whatever bytes follow. -/
private theorem decode_append {envelope : Envelope}
    (fits : envelope.toBytes.length ≤ Wire.datagramLimit) (rest : Bytes) :
    decode (envelope.toBytes ++ rest) = .ok envelope :=
  decode_of_yields (Format.lawful_envelope.readsBack envelope (short_of_fits fits)) rest

/-- A datagram yields the envelope it was made of. -/
theorem decode_of_encode {envelope : Envelope} {datagram : Bytes}
    (made : envelope.encode = .ok datagram) : decode datagram = .ok envelope := by
  obtain ⟨rfl, fits⟩ := encode_eq_ok_iff.mp made
  have back := decode_append fits []
  rwa [List.append_nil] at back

/-- No proper front part of the datagram of an envelope yields any. -/
private theorem decode_of_isPrefix {envelope : Envelope}
    (fits : envelope.toBytes.length ≤ Wire.datagramLimit) {front : Bytes}
    (isFront : front <+: envelope.toBytes) (proper : front ≠ envelope.toBytes) :
    ∃ fault, decode front = .error fault :=
  decode_of_isPrefix_of_yields
    (Format.lawful_envelope.readsBack envelope (short_of_fits fits)) isFront proper

/-- An envelope makes a datagram exactly if its bytes fit into one.  The
datagram yields the envelope, whatever bytes follow it, and no proper front
part of it yields any. -/
theorem encode_delimited (envelope : Envelope) :
    ((∃ datagram, envelope.encode = .ok datagram) ↔ envelope.toBytes.length ≤ 65507) ∧
      ∀ datagram, envelope.encode = .ok datagram →
        (∀ rest, decode (datagram ++ rest) = .ok envelope) ∧
          ∀ front, front <+: datagram → front ≠ datagram →
            ∃ fault, decode front = .error fault := by
  constructor
  · constructor
    · rintro ⟨datagram, made⟩
      exact (encode_eq_ok_iff.mp made).2
    · intro fits
      exact ⟨_, encode_eq_ok_iff.mpr ⟨rfl, fits⟩⟩
  · intro datagram made
    obtain ⟨rfl, fits⟩ := encode_eq_ok_iff.mp made
    exact ⟨decode_append fits, fun front => decode_of_isPrefix fits⟩

def healing : Envelope where
  env := "test"
  sender := { address := "10.0.0.1", port := 7000, incarnation := 1 }
  message := .heal (SortedMap.ofList [("membership", [1, 7, 4])])
  gossip :=
    [{ id := { origin := ⟨3⟩, sequence := 1 }
       payload :=
        .suspect { address := "10.0.0.2", port := 7000, incarnation := 2 }
          { address := "10.0.0.1", port := 7000, incarnation := 1 } }]

theorem encode_delimited_healing :
    healing.toBytes.length = 159 ∧ healing.encode = .ok healing.toBytes ∧
      decode (healing.toBytes ++ [5, 6]) = .ok healing ∧
        ∃ fault, decode (healing.toBytes.take 60) = .error fault := by
  have size : healing.toBytes.length = 159 := by
    decide +kernel
  have made : healing.encode = .ok healing.toBytes :=
    encode_eq_ok_iff.mpr ⟨rfl, by rw [size]; decide⟩
  obtain ⟨whole, cut⟩ := (encode_delimited healing).2 _ made
  refine ⟨size, made, whole [5, 6], cut _ (List.take_prefix 60 _) fun same => ?_⟩
  have shorter := congrArg List.length same
  rw [List.length_take, size] at shorter
  cases shorter

end Roster.Envelope
