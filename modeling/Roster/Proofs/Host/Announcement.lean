import Roster.Host
import Roster.Proofs.Endpoint
import Roster.Proofs.MemberList.Presence
import Roster.Proofs.Node.Rounds
import Roster.Proofs.Node.Settled
import Roster.Proofs.Tags

/-!
# The endpoint that a host announces

To validate the options and to bind read their address without the white space
around it, but the endpoint that a host announces has the address as it was
written.  The key of the endpoint is read back all the same, for white space is
not a bracket; the endpoint can be dialled only if there was no white space.
-/

namespace Roster

/-! ## White space -/

namespace Text

variable {removed : Char → Bool} {c : Char} {text : List Char}

private theorem mem_dropWhile (member : c ∈ text) (stays : removed c = false) :
    c ∈ text.dropWhile removed := by
  have parts : text.takeWhile removed ++ text.dropWhile removed = text :=
    List.takeWhile_append_dropWhile
  rw [← parts] at member
  rcases List.mem_append.mp member with taken | dropped
  · rw [List.mem_takeWhile_imp taken] at stays
    cases stays
  · exact dropped

/-- To trim a text takes nothing but white space away. -/
private theorem mem_trim (member : c ∈ text) (visible : isBlank c = false) : c ∈ trim text := by
  have front : c ∈ text.dropWhile isBlank := mem_dropWhile member visible
  exact List.mem_reverse.mpr (mem_dropWhile (List.mem_reverse.mpr front) visible)

private theorem dropWhile_eq_self (stays : ∀ c ∈ text, removed c = false) :
    text.dropWhile removed = text := by
  cases text with
  | nil => rfl
  | cons c rest => exact List.dropWhile_cons_of_neg (by simp [stays c List.mem_cons_self])

private theorem trim_eq_self (visible : ∀ c ∈ text, isBlank c = false) : trim text = text := by
  have back : ∀ c ∈ text.reverse, isBlank c = false :=
    fun c member => visible c (List.mem_reverse.mp member)
  rw [trim, dropWhile_eq_self visible, dropEnd, dropWhile_eq_self back, List.reverse_reverse]

end Text

/-- The characters of a numeric address stand between the point and the letter
`f`; white space does not. -/
private theorem Endpoint.toNat_of_isNumeric {c : Char} (numeric : isNumeric c = true) :
    '.'.toNat ≤ c.toNat ∧ c.toNat ≤ 'f'.toNat := by
  simp only [isNumeric, Bool.or_eq_true, beq_iff_eq] at numeric
  rcases numeric with (hexadecimal | rfl) | rfl
  · have ranges :
        ('0' ≤ c ∧ c ≤ '9') ∨ ('a' ≤ c ∧ c ≤ 'f') ∨ ('A' ≤ c ∧ c ≤ 'F') := by
      unfold Text.hexDigit at hexadecimal
      split at hexadecimal
      · rename_i digit
        simp only [Char.isDigit, ge_iff_le, Bool.and_eq_true, decide_eq_true_eq] at digit
        exact Or.inl digit
      · split at hexadecimal
        · rename_i lower
          exact Or.inr (Or.inl lower)
        · split at hexadecimal
          · rename_i upper
            exact Or.inr (Or.inr upper)
          · cases hexadecimal
    simp only [Char.le_def, UInt32.le_iff_toNat_le, Char.toNat_val] at ranges
    simp only [Char.reduceToNat] at ranges ⊢
    omega
  · decide
  · decide

private theorem Endpoint.isBlank_eq_false_of_isNumeric {c : Char} (numeric : isNumeric c = true) :
    Text.isBlank c = false := by
  obtain ⟨least, most⟩ := toNat_of_isNumeric numeric
  simp only [Char.reduceToNat] at least most
  rw [← Bool.not_eq_true]
  intro blank
  simp only [Text.isBlank, Bool.or_eq_true, Bool.and_eq_true, beq_iff_eq,
    decide_eq_true_eq] at blank
  omega

/-! ## The address of the options -/

namespace Options

variable {options : Options} {ip : IpAddress}

theorem exists_bindIp (valid : options.validate = .ok ()) :
    ∃ ip, options.bindIp = .ok ip := by
  obtain ⟨ip, named, _⟩ := Attempt.bind_eq_ok valid
  exact ⟨ip, named⟩

theorem ofChars?_trim_of_bindIp (named : options.bindIp = .ok ip) :
    IpAddress.ofChars? (Text.trim options.addr.toList) = some ip := by
  unfold bindIp at named
  simp only at named
  split at named
  · cases named
  · split at named
    · cases named
    · rename_i found read
      split at named
      · cases named
      · cases named
        exact read

private theorem isNumeric_or_isBlank (named : options.bindIp = .ok ip) {c : Char}
    (member : c ∈ options.addr.toList) :
    Endpoint.isNumeric c = true ∨ Text.isBlank c = true := by
  cases blank : Text.isBlank c with
  | true => exact Or.inr rfl
  | false =>
      have inside := Text.mem_trim member blank
      exact Or.inl (Endpoint.isNumeric_of_ofChars? (ofChars?_trim_of_bindIp named) inside)

/-- The address, as it is written, is numeric exactly if it has no white space
around it. -/
private theorem ofString?_addr (named : options.bindIp = .ok ip) :
    IpAddress.ofString? options.addr =
      if Text.trim options.addr.toList = options.addr.toList then some ip else none := by
  have trimmedRead := ofChars?_trim_of_bindIp named
  split
  · rename_i bare
    rw [bare] at trimmedRead
    exact trimmedRead
  · rename_i padded
    rw [Option.eq_none_iff_forall_ne_some]
    intro other read
    exact padded
      (Text.trim_eq_self fun c member =>
        Endpoint.isBlank_eq_false_of_isNumeric (Endpoint.isNumeric_of_ofChars? read member))

/-- A socket is bound where the options say: at their address, and at their port
unless that is zero. -/
structure Binds (options : Options) (address : SocketAddress) : Prop where
  bindAddress_eq :
    (options.bindAddress.map fun wanted => { wanted with port := address.port }) = .ok address
  port_eq : options.port ≠ 0 → address.port = options.port

private theorem binds_iff {address : SocketAddress} :
    options.Binds address ↔
      (options.bindAddress.map fun wanted => { wanted with port := address.port }).toOption =
          some address ∧
        (options.port ≠ 0 → address.port = options.port) := by
  constructor
  · rintro ⟨named, port⟩
    exact ⟨by rw [named]; rfl, port⟩
  · rintro ⟨named, port⟩
    refine ⟨?_, port⟩
    revert named
    cases options.bindAddress with
    | error fault =>
        intro absent
        cases absent
    | ok wanted =>
        intro same
        exact congrArg Except.ok (Option.some.inj same)

theorem Binds.eq {address : SocketAddress} (binds : options.Binds address)
    (named : options.bindIp = .ok ip) :
    address = { ip, port := address.port } := by
  have same := binds.bindAddress_eq
  rw [bindAddress, named] at same
  exact (Except.ok.inj same).symm

instance (options : Options) (address : SocketAddress) : Decidable (options.Binds address) :=
  decidable_of_iff' _ binds_iff

end Options

/-! ## A list of one member -/

/-- The list of a host that has just started has the host as its only member. -/
private theorem MemberList.members_new {own : Endpoint} (readsBack : own.ReadsBack) (tags : Tags)
    (replica : ReplicaId) :
    (MemberList.new own tags replica).members = SortedMap.empty.insert own tags := by
  let blank : MemberList := { own, tags, store := { replica } }
  let list := MemberList.new own tags replica
  have entry (key : String) :
      (list.store.entries membershipUri).get? key =
        if key = own.key then some tags.toText else none :=
    get?_entries_write_singleton blank membershipUri key (.put own.key tags.toText)
  have keyed (key value : String)
      (found : (list.store.entries membershipUri).get? key = some value) : key = own.key := by
    rw [entry, Option.ite_none_right_eq_some] at found
    exact found.1
  refine SortedMap.ext_get? fun endpoint => ?_
  rw [SortedMap.get?_insert, SortedMap.get?_empty]
  split
  · rename_i same
    subst same
    have found := (entry endpoint.key).trans (if_pos rfl)
    rw [get?_members found readsBack, Tags.ofText_toText]
    intro other contained _
    obtain ⟨value, otherFound⟩ := SortedMap.contains_iff.mp contained
    exact keyed other value otherFound
  · rename_i different
    rw [← Option.not_isSome_iff_eq_none]
    intro member
    obtain ⟨key, value, found, read⟩ := exists_entry_of_contains_members member
    rw [keyed key value found] at read
    exact different (Option.some.inj (read.symm.trans readsBack))

/-! ## Starting -/

/-- The number of retransmissions of a lone healthy host is a word, for the
multiplier and the ceiling are words of half the width. -/
private theorem Node.exists_limited (options : Options) {magnitude : Nat} (least : magnitude ≤ 1) :
    ∃ limit, Limited options magnitude limit := by
  let health := Health.new options.healthCeiling.toNat
  have half : ∀ word : UInt32, max word.toNat 1 ≤ 2 ^ 32 - 1 := by
    intro word
    have := word.toNat_lt
    omega
  have wanted : max options.retransmitMultiplier.toNat 1 * max magnitude 1 ≤ 2 ^ 32 - 1 := by
    rw [Nat.max_eq_right least, Nat.mul_one]
    exact half options.retransmitMultiplier
  have wantedFits :
      max options.retransmitMultiplier.toNat 1 * max magnitude 1 < Word.bound :=
    Nat.lt_of_le_of_lt wanted (by decide)
  have scaledFits :
      min (max options.retransmitMultiplier.toNat 1 * max magnitude 1)
          (max options.gossipPerEnvelope.toNat 1) * (health.ceiling - health.score) <
        Word.bound := by
    refine Nat.lt_of_le_of_lt (Nat.mul_le_mul ?_ ?_) (by decide : (2 ^ 32 - 1) * (2 ^ 32 - 1) < _)
    · exact Nat.le_trans (Nat.min_le_left _ _) wanted
    · exact Nat.le_trans (Nat.sub_le _ _) (half options.healthCeiling)
  exact ⟨_, health.retransmissions_of_fits wantedFits scaledFits⟩

/-- A new node lists itself, as a list does that has just been made. -/
private theorem Node.list_of_new {options : Options} {own : Endpoint} {tags : Tags}
    {replica : ReplicaId} {link : Link} {chance : Chance} {node : Node}
    (made : Node.new options own tags replica link chance = .ok node) :
    node.list.own = own ∧ node.list.members = (MemberList.new own tags replica).members := by
  obtain ⟨courier, _, settled⟩ := exists_unsettled_of_new made
  have tidies := Tidies.settle (Node.unsettled options own tags replica link chance courier)
  rw [settled] at tidies
  exact ⟨tidies.own_eq.trans (MemberList.own_new own tags replica), tidies.members_eq⟩

namespace Host

variable {options : Options} {link : Link} {incarnation : UInt64} {ip : IpAddress}

/-- White space is no bracket, so the key of the endpoint is read back. -/
theorem readsBack_announced (named : options.bindIp = .ok ip) (link : Link)
    (incarnation : UInt64) : (announced options link incarnation).ReadsBack := by
  have neverBracket : ∀ c ∈ options.addr.toList, c ≠ '[' ∧ c ≠ ']' := by
    intro c member
    constructor <;> rintro rfl <;>
      exact absurd (Options.isNumeric_or_isBlank named member) (by decide)
  refine Endpoint.readsBack_of_ends ?_ ?_ ?_
  · intro (empty : options.addr.toList = [])
    have read := Options.ofChars?_trim_of_bindIp named
    rw [empty] at read
    cases read
  · intro head
    exact (neverBracket '[' (List.mem_of_head? head)).1 rfl
  · intro last
    exact (neverBracket ']' (List.mem_of_getLast? last)).2 rfl

/-- The endpoint can be dialled, at the address of the link, exactly if there is
no white space around the address of the options. -/
private theorem socketAddress?_announced (valid : options.validate = .ok ())
    (bound : options.Binds link.address) (incarnation : UInt64) :
    (announced options link incarnation).socketAddress? =
      if Text.trim options.addr.toList = options.addr.toList then some link.address else none := by
  obtain ⟨ip, named⟩ := Options.exists_bindIp valid
  rw [Endpoint.socketAddress?, announced, Options.ofString?_addr named, bound.eq named]
  split <;> rfl

/-- A host that has started goes by the endpoint it announces, and is its own
only member. -/
private theorem node_of_start {host : Host} {replica : ReplicaId} {chance : Chance}
    (valid : options.validate = .ok ())
    (started : start options link replica incarnation chance = .ok (.ok host)) :
    let own := announced options link incarnation
    host.node.own = own ∧
      host.node.members.value = SortedMap.empty.insert own (tags options own) := by
  intro own
  unfold start at started
  rw [valid] at started
  obtain ⟨node, made, same⟩ := Attempt.bind_eq_ok started
  cases same
  obtain ⟨ip, named⟩ := Options.exists_bindIp valid
  have settled := Node.settled_new made
  obtain ⟨listOwn, listed⟩ := Node.list_of_new made
  have readsBack := readsBack_announced named link incarnation
  refine ⟨settled.own_eq.trans listOwn, ?_⟩
  rw [settled.members_eq, listed, MemberList.members_new readsBack]

/-- A host with valid options starts, if the magnitude of a lone host is computed
as one at most. -/
private theorem exists_start (valid : options.validate = .ok ()) (link : Link) (replica : ReplicaId)
    (incarnation : UInt64) (chance : Chance) (measured : Health.magnitude 1 ≤ 1) :
    ∃ host, start options link replica incarnation chance = .ok (.ok host) := by
  obtain ⟨ip, named⟩ := Options.exists_bindIp valid
  let own := announced options link incarnation
  have single : (MemberList.new own (tags options own) replica).members.size = 1 := by
    rw [MemberList.members_new (readsBack_announced named link incarnation)]
    rfl
  obtain ⟨limit, limited⟩ := Node.exists_limited options measured
  have limitedListed :
      Node.Limited options
        (Health.magnitude (MemberList.new own (tags options own) replica).members.size) limit := by
    rw [single]
    exact limited
  obtain ⟨node, made⟩ :=
    Node.exists_new_of_limited own (tags options own) replica link chance limited limitedListed
  refine ⟨{ node }, ?_⟩
  have madeAnnounced :
      Node.new options (announced options link incarnation)
        (tags options (announced options link incarnation)) replica link chance = .ok node :=
    made
  unfold start
  rw [valid]
  simp only [madeAnnounced, Attempt.ok_bind]
  rfl

/-- Valid options are never refused: a host starts on the link, if the magnitude
of a lone host is computed as one at most, and goes by an endpoint whose key is
read back.  On a link that is bound where the options say, the endpoint can be
dialled, at the address of the link, exactly if the options have no white space
around their address: to validate and to bind pass over it, to announce does
not. -/
theorem dialled_unless_padded (valid : options.validate = .ok ())
    (bound : options.Binds link.address) (replica : ReplicaId) (incarnation : UInt64)
    (chance : Chance) :
    let own := announced options link incarnation
    (Health.magnitude 1 ≤ 1 →
        ∃ host, start options link replica incarnation chance = .ok (.ok host)) ∧
      (∀ result, start options link replica incarnation chance = .ok result →
        ∃ host, result = .ok host ∧ host.node.own = own ∧
          host.node.members.value = SortedMap.empty.insert own (tags options own)) ∧
      Endpoint.ofKey? own.key = some own ∧
      own.socketAddress? =
        if Text.trim options.addr.toList = options.addr.toList then
          some link.address
        else
          none := by
  intro own
  refine ⟨fun measured => exists_start valid link replica incarnation chance measured,
    fun result started => ?_, ?_, socketAddress?_announced valid bound incarnation⟩
  · cases result with
    | error refusal =>
        unfold start at started
        rw [valid] at started
        obtain ⟨node, _, same⟩ := Attempt.bind_eq_ok started
        cases same
    | ok host => exact ⟨host, rfl, node_of_start valid started⟩
  · obtain ⟨ip, named⟩ := Options.exists_bindIp valid
    exact readsBack_announced named link incarnation

/-- The default options on a loopback port. -/
theorem dialled_unless_padded_default :
    let options : Options := {}
    let link : Link := { address := ⟨.v4 0x7f000001, 7000, 0⟩ }
    let own := announced options link 7
    options.validate = .ok () ∧ options.Binds link.address ∧
      Endpoint.ofKey? own.key = some own ∧ own.socketAddress? = some link.address := by
  intro options link own
  have valid : options.validate = .ok () := by decide
  have bound : options.Binds link.address := by decide
  obtain ⟨_, _, read, dialled⟩ := dialled_unless_padded valid bound ⟨1⟩ 7 (Chance.ofSeed 1)
  exact ⟨valid, bound, read, dialled.trans (if_pos (by decide))⟩

/-- With a blank before the address the options are valid and name an address to
bind, yet the endpoint that is announced cannot be dialled. -/
theorem announced_padded :
    let options : Options := { addr := " 127.0.0.1" }
    let link : Link := { address := ⟨.v4 0x7f000001, 7000, 0⟩ }
    options.validate = .ok () ∧ options.Binds link.address ∧
      (announced options link 7).socketAddress? = none := by
  decide

end Host

end Roster
