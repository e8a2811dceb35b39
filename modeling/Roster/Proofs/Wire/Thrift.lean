import Mathlib.Data.List.Flatten
import Mathlib.Data.List.Nodup
import Mathlib.Data.List.Perm.Basic
import Roster.Proofs.Wire.Envelope

/-!
# What is read is written in no more bytes

A reader takes its value from the front of its input.  That front part yields the value
whatever follows it, and the value is written in no more bytes.  It may take fewer: of
the entries of a map only the last of each key is kept.  So a datagram that is read
need not be what its envelope is written as, but it can always be written again.
-/

namespace Roster.Wire

variable {α β : Type}

namespace Reader

/-- Every value that is read is yielded by a front part of the input, which has no
fewer bytes than the size of the value. -/
def Thrifty (read : Reader α) (size : α → Nat) : Prop :=
  ∀ ⦃input rest : Bytes⦄ ⦃value : α⦄, read input = .ok (value, rest) →
    ∃ front, input = front ++ rest ∧ read.Yields front value ∧ size value ≤ front.length

theorem thrifty_return {size : α → Nat} {value : α} (nothing : size value = 0) :
    Thrifty (fun input => .ok (value, input)) size := by
  intro input rest found read
  cases read
  exact ⟨[], rfl, fun _ => rfl, Nat.le_of_eq nothing⟩

theorem thrifty_throw (fault : Fault) (size : α → Nat) :
    Thrifty (fun _ => .error fault) size := by
  intro input rest value read
  cases read

/-- One reader after another: the second has to find bytes only for what the first has
not. -/
theorem Thrifty.bind {first : Reader α} {next : α × Bytes → Except Fault (β × Bytes)}
    {size : α → Nat} {whole : β → Nat} (thrifty : first.Thrifty size)
    (thriftyNext : ∀ value,
      Thrifty (fun input => next (value, input)) fun built => whole built - size value) :
    Thrifty (fun input => first input >>= next) whole := by
  intro input rest value read
  obtain ⟨⟨found, middle⟩, readFirst, readNext⟩ := Attempt.bind_eq_ok read
  obtain ⟨front, rfl, yields, few⟩ := thrifty readFirst
  obtain ⟨back, rfl, yieldsNext, fewNext⟩ := thriftyNext found readNext
  refine ⟨front ++ back, (List.append_assoc front back rest).symm, fun more => ?_, ?_⟩
  · simp only [List.append_assoc, yields (back ++ more), Attempt.ok_bind]
    exact yieldsNext more
  · have together : whole value - size found ≤ back.length := fewNext
    rw [List.length_append]
    omega

/-- What was built of a value that was read. -/
theorem Thrifty.build {read : Reader α} {size : α → Nat} (thrifty : read.Thrifty size)
    (build : α → β) {whole : β → Nat} (bounded : ∀ value, whole (build value) ≤ size value) :
    Thrifty (fun input => read input >>= fun result => .ok (build result.1, result.2))
      whole := by
  have built (value : α) :
      Thrifty (fun input => .ok (build value, input)) fun made => whole made - size value :=
    thrifty_return (Nat.sub_eq_zero_of_le (bounded value))
  exact thrifty.bind built

end Reader

namespace Format

/-- Whatever is read is written in no more bytes than it was read from. -/
abbrev Thrifty (format : Format α) : Prop :=
  Reader.Thrifty format.read fun value => (format.write value).length

/-! ## Numbers -/

theorem splitAt?_eq_some_iff {count : Nat} {bytes front rest : Bytes} :
    splitAt? count bytes = some (front, rest) ↔
      bytes = front ++ rest ∧ front.length = count := by
  constructor
  · intro split
    unfold splitAt? at split
    simp only at split
    split at split
    · rename_i enough
      cases split
      exact ⟨(List.take_append_drop count bytes).symm, enough⟩
    · cases split
  · rintro ⟨rfl, rfl⟩
    exact splitAt?_append front rest

theorem thrifty_number (width : Nat) : (number width).Thrifty := by
  intro input rest value read
  simp only [number] at read
  split at read
  · rename_i front left split
    cases read
    obtain ⟨rfl, enough⟩ := splitAt?_eq_some_iff.mp split
    refine ⟨front, rfl, fun more => ?_, ?_⟩
    · simp only [number, splitAt?_eq_some_iff.mpr ⟨rfl, enough⟩]
    · simp only [number, length_littleEndian, enough, Nat.le_refl]
  · cases read

private theorem thrifty_flag : flag.Thrifty := by
  intro input rest value read
  cases input with
  | nil => cases read
  | cons byte input =>
      simp only [flag] at read
      split at read
      · rename_i isZero
        cases read
        exact ⟨[byte], rfl, fun more => by simp [flag, isZero], Nat.le_refl _⟩
      · split at read
        · rename_i isOne
          cases read
          exact ⟨[byte], rfl, fun more => by simp [flag, isOne], Nat.le_refl _⟩
        · cases read

/-! ## Composed formats -/

theorem Thrifty.convert {format : Format α} (thrifty : format.Thrifty) {build : α → β}
    {parts : β → α}
    (bounded : ∀ value,
      (format.write (parts (build value))).length ≤ (format.write value).length) :
    (format.convert build parts).Thrifty :=
  Reader.Thrifty.build thrifty build bounded

/-- The same bytes, taken for values that have the same parts. -/
theorem Thrifty.relabel {format : Format α} (thrifty : format.Thrifty) {build : α → β}
    {parts : β → α} (same : ∀ value, parts (build value) = value) :
    (format.convert build parts).Thrifty :=
  thrifty.convert fun value => Nat.le_of_eq (by rw [same])

/-- A number of a fixed width is written in that width, whatever it stands for. -/
private theorem thrifty_convert_number (width : Nat) (build : Nat → β) (parts : β → Nat) :
    ((number width).convert build parts).Thrifty :=
  (thrifty_number width).convert fun value => by
    simp only [number, length_littleEndian, Nat.le_refl]

theorem Thrifty.pair {first : Format α} {second : Format β} (left : first.Thrifty)
    (right : second.Thrifty) : (first.pair second).Thrifty :=
  Reader.Thrifty.bind left fun value =>
    Reader.Thrifty.build right (value, ·) fun other => by
      simp only [Format.pair, List.length_append]
      omega

private theorem thrifty_bytes : bytes.Thrifty := by
  intro input rest value read
  obtain ⟨⟨count, counted⟩, number, readContent⟩ := Attempt.bind_eq_ok read
  simp only at readContent
  obtain ⟨front, rfl, yields, few⟩ := thrifty_number 8 number
  split at readContent
  · rename_i content split
    cases readContent
    obtain ⟨rfl, rfl⟩ := splitAt?_eq_some_iff.mp split
    refine ⟨front ++ value, (List.append_assoc front value rest).symm, fun more => ?_, ?_⟩
    · simp only [bytes, List.append_assoc, yields (value ++ more), Attempt.ok_bind,
        splitAt?_append]
      rfl
    · have counted : ((Format.number 8).write value.length).length ≤ front.length := few
      simp only [bytes, List.length_append]
      omega
  · cases readContent

/-- The bytes of a text that was made of bytes are these. -/
private theorem utf8_of_fromUTF8? {content : Bytes} {value : String}
    (made : String.fromUTF8? ⟨content.toArray⟩ = some value) : utf8 value = content := by
  unfold String.fromUTF8? at made
  split at made
  · cases made
    rfl
  · cases made

theorem thrifty_text : text.Thrifty := by
  intro input rest value read
  obtain ⟨⟨count, counted⟩, number, readContent⟩ := Attempt.bind_eq_ok read
  simp only at readContent
  obtain ⟨front, rfl, yields, few⟩ := thrifty_number 8 number
  split at readContent
  · cases readContent
  · rename_i content left split
    obtain ⟨rfl, rfl⟩ := splitAt?_eq_some_iff.mp split
    split at readContent
    · rename_i made
      cases readContent
      refine ⟨front ++ content, (List.append_assoc front content rest).symm, fun more => ?_, ?_⟩
      · simp only [text, textAfter, List.append_assoc, yields (content ++ more), Attempt.ok_bind,
          splitAt?_append, made]
        rfl
      · have counted : ((Format.number 8).write content.length).length ≤ front.length := few
        simp only [text, textAfter, List.length_append, utf8_of_fromUTF8? made]
        omega
    · cases readContent

private theorem thrifty_readMany {format : Format α} (thrifty : format.Thrifty) :
    ∀ count, Reader.Thrifty (readMany format count) fun values =>
      (values.flatMap format.write).length
  | 0 => Reader.thrifty_return rfl
  | count + 1 =>
      Reader.Thrifty.bind thrifty fun value =>
        Reader.Thrifty.build (thrifty_readMany thrifty count) (value :: ·) fun values => by
          simp only [List.flatMap_cons, List.length_append]
          omega

theorem Thrifty.list {format : Format α} (thrifty : format.Thrifty) :
    (Format.list format).Thrifty := by
  have values (count : Nat) :
      Reader.Thrifty (readMany format count) fun values =>
        ((Format.list format).write values).length - ((number 8).write count).length := by
    intro input rest values read
    obtain ⟨front, split, yields, few⟩ := thrifty_readMany thrifty count read
    refine ⟨front, split, yields, Nat.le_trans ?_ few⟩
    simp only [Format.list, listAfter, number, List.length_append, length_littleEndian]
    omega
  exact Reader.Thrifty.bind (thrifty_number 8) values

/-- Of the entries that a map is read from it keeps at most all. -/
private theorem length_flatMap_ofList_le (write : String × α → Bytes)
    (entries : List (String × α)) :
    ((SortedMap.ofList entries).entries.flatMap write).length ≤ (entries.flatMap write).length := by
  have distinct : (SortedMap.ofList entries).entries.Nodup :=
    List.Nodup.of_map Prod.fst (SortedMap.nodup_keys (SortedMap.ofList entries))
  have kept : (SortedMap.ofList entries).entries ⊆ entries := fun _ member =>
    SortedMap.mem_of_get?_ofList (SortedMap.get?_eq_some_iff.mpr member)
  obtain ⟨arranged, reordered, sublist⟩ := List.subperm_of_subset distinct kept
  rw [← (reordered.flatMap_right write).length_eq]
  exact (sublist.flatMap write).length_le

theorem Thrifty.map {format : Format α} (thrifty : format.Thrifty) :
    (Format.map format).Thrifty := by
  refine (thrifty_text.pair thrifty).list.convert fun entries => ?_
  have fewer := length_flatMap_ofList_le (text.pair format).write entries
  simp only [Format.list, listAfter, number, List.length_append, length_littleEndian]
  omega

/-! ## Parts of envelopes -/

theorem thrifty_word : word.Thrifty :=
  thrifty_convert_number 8 _ _

private theorem thrifty_replica : replica.Thrifty :=
  thrifty_word.relabel fun _ => rfl

theorem thrifty_endpoint : endpoint.Thrifty :=
  (thrifty_text.pair ((thrifty_convert_number 2 _ _).pair thrifty_word)).relabel fun _ => rfl

private theorem thrifty_update : update.Thrifty :=
  (thrifty_text.pair thrifty_bytes).relabel fun _ => rfl

private theorem thrifty_gossipId : gossipId.Thrifty :=
  (thrifty_replica.pair thrifty_word).relabel fun _ => rfl

private theorem thrifty_probe : probe.Thrifty :=
  thrifty_word.pair thrifty_endpoint

private theorem thrifty_documents : (map bytes).Thrifty :=
  thrifty_bytes.map

/-! ## Choices -/

/-- What a variant has besides its number is written in the bytes of its part. -/
private theorem length_variant_le (number : Nat) (content : Bytes) (chosen : Nat) :
    (variant.write number ++ content).length - (variant.write chosen).length ≤
      content.length := by
  simp only [variant, Format.number, List.length_append, length_littleEndian]
  omega

theorem thrifty_variant : variant.Thrifty :=
  thrifty_number 4

private theorem thrifty_payload : payload.Thrifty :=
  Reader.Thrifty.bind thrifty_variant fun
    | 0 =>
        Reader.Thrifty.build (thrifty_endpoint.pair thrifty_endpoint)
          (fun both => Payload.suspect both.1 both.2) fun _ => length_variant_le 0 _ _
    | 1 => Reader.Thrifty.build thrifty_endpoint Payload.alive fun _ => length_variant_le 1 _ _
    | 2 => Reader.Thrifty.build thrifty_update Payload.delta fun _ => length_variant_le 2 _ _
    | _ + 3 => Reader.thrifty_throw _ _

private theorem thrifty_gossip : gossip.Thrifty :=
  (thrifty_gossipId.pair thrifty_payload).relabel fun _ => rfl

private theorem thrifty_exchangeKind : exchangeKind.Thrifty :=
  Reader.Thrifty.bind thrifty_variant fun
    | 0 => Reader.thrifty_return (Nat.sub_self 4)
    | 1 => Reader.thrifty_return (Nat.sub_self 4)
    | _ + 2 => Reader.thrifty_throw _ _

private theorem thrifty_message : message.Thrifty := by
  have maps := thrifty_documents.pair thrifty_documents
  exact
    Reader.Thrifty.bind thrifty_variant fun
      | 0 =>
          Reader.Thrifty.build thrifty_probe (fun both => Message.ping both.1 both.2) fun _ =>
            length_variant_le 0 _ _
      | 1 => Reader.Thrifty.build thrifty_word Message.ack fun _ => length_variant_le 1 _ _
      | 2 =>
          Reader.Thrifty.build thrifty_probe (fun both => Message.pingRequest both.1 both.2)
            fun _ => length_variant_le 2 _ _
      | 3 =>
          Reader.Thrifty.build (thrifty_probe.pair thrifty_flag)
            (fun both => Message.indirectAck both.1.1 both.1.2 both.2) fun _ =>
              length_variant_le 3 _ _
      | 4 =>
          Reader.Thrifty.build maps (fun both => Message.join both.1 both.2) fun _ =>
            length_variant_le 4 _ _
      | 5 => Reader.Thrifty.build thrifty_documents Message.heal fun _ => length_variant_le 5 _ _
      | 6 =>
          Reader.Thrifty.build (thrifty_exchangeKind.pair maps)
            (fun both => Message.exchange both.1 both.2.1 both.2.2) fun _ =>
              length_variant_le 6 _ _
      | 7 =>
          Reader.Thrifty.build thrifty_documents Message.response fun _ => length_variant_le 7 _ _
      | 8 => Reader.Thrifty.build thrifty_update Message.store fun _ => length_variant_le 8 _ _
      | 9 => Reader.thrifty_return (Nat.sub_self 4)
      | _ + 10 => Reader.thrifty_throw _ _

private theorem thrifty_envelope : envelope.Thrifty :=
  (thrifty_text.pair
    (thrifty_endpoint.pair (thrifty_message.pair thrifty_gossip.list))).relabel fun _ => rfl

end Format

end Roster.Wire

namespace Roster.Envelope

open Wire (Format)

variable {datagram : Bytes} {envelope : Envelope}

/-- What a reader makes of a datagram is what it makes of a front part of it. -/
private theorem exists_front_of_decode (decoded : decode datagram = .ok envelope) :
    ∃ front, front <+: datagram ∧ Wire.Reader.Yields Format.envelope.read front envelope ∧
      envelope.toBytes.length ≤ front.length := by
  obtain ⟨⟨found, rest⟩, read, rfl⟩ := Attempt.map_eq_ok decoded
  obtain ⟨front, rfl, yields, few⟩ := Wire.Format.thrifty_envelope read
  exact ⟨front, List.prefix_append front rest, yields, few⟩

/-- An envelope that is decoded comes from a front part of the datagram.  It does so
whatever follows that part, no proper front part of it yields any, and the envelope
takes no more bytes than it.  So what was decoded from a datagram of allowed size can be
encoded, and decodes to itself. -/
theorem decode_normalises (decoded : decode datagram = .ok envelope) :
    (∃ front, front <+: datagram ∧
        (∀ rest, decode (front ++ rest) = .ok envelope) ∧
        (∀ shorter, shorter <+: front → shorter ≠ front →
          ∃ fault, decode shorter = .error fault) ∧
        envelope.toBytes.length ≤ front.length) ∧
      (datagram.length ≤ 65507 →
        ∃ written, envelope.encode = .ok written ∧ decode written = .ok envelope) := by
  obtain ⟨front, isFront, yields, few⟩ := exists_front_of_decode decoded
  constructor
  · exact
      ⟨front, isFront, decode_of_yields yields, fun _ => decode_of_isPrefix_of_yields yields, few⟩
  · intro short
    have fits : envelope.toBytes.length ≤ Wire.datagramLimit :=
      Nat.le_trans few (Nat.le_trans isFront.length_le short)
    have made := encode_eq_ok_iff.mpr ⟨rfl, fits⟩
    exact ⟨_, made, decode_of_encode made⟩

/-- A datagram that names one map twice, and out of order, with bytes that do not belong
to it. -/
def untidy : Bytes :=
  Format.text.write "dev" ++
    Format.endpoint.write { address := "10.0.0.1", port := 7000, incarnation := 1 } ++
      Format.variant.write 5 ++
        (Format.list (Format.text.pair Format.bytes)).write
          [("membership", [1, 7]), ("agent-hosts", [2]), ("membership", [3])] ++
          (Format.list Format.gossip).write [] ++ [9, 9]

def tidied : Envelope where
  env := "dev"
  sender := { address := "10.0.0.1", port := 7000, incarnation := 1 }
  message := .heal (SortedMap.ofList [("agent-hosts", [2]), ("membership", [3])])

theorem decode_normalises_untidy :
    decode untidy = .ok tidied ∧ untidy.length = 142 ∧ tidied.toBytes.length = 112 ∧
      ∃ written, tidied.encode = .ok written ∧ decode written = .ok tidied := by
  have decoded : decode untidy = .ok tidied := by
    decide +kernel
  have size : untidy.length = 142 := by
    decide +kernel
  refine ⟨decoded, size, by decide +kernel, ?_⟩
  exact (decode_normalises decoded).2 (by rw [size]; decide)

end Roster.Envelope
