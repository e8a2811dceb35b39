import Roster.Proofs.MemberList.Import

/-!
# What a member list puts

A list puts the key of each of its endpoints at most once, with its tags, and
hosting entries of its own endpoints only.  Each endpoint supersedes those that
the list had before.
-/

namespace Roster.MemberList

variable {start list after : MemberList} {names known : List Endpoint} {own : Endpoint}

/-- What the puts of a list are about, where `names` are the endpoints it has
had, the latest first. -/
structure Attributed (list : MemberList) (names : List Endpoint) : Prop where
  descending : names.Pairwise fun later earlier => later.supersedes earlier = true
  announced : ∀ operation ∈ list.log membershipUri, operation.replica = list.store.replica →
    operation.value.isSome = true →
      operation.value = some list.tags.toText ∧ ∃ name ∈ names, operation.key = name.key
  once : ∀ first ∈ list.log membershipUri, ∀ second ∈ list.log membershipUri,
    first.replica = list.store.replica → second.replica = list.store.replica →
      first.value.isSome = true → second.value.isSome = true → first.key = second.key →
        first = second
  placed : ∀ operation ∈ list.log hostingUri, operation.replica = list.store.replica →
    operation.value.isSome = true →
      ∃ agent, ∃ name ∈ names,
        operation.key = hostingKey agent name ∧ operation.value = some name.key

/-- The first of the endpoints is the one the list has now. -/
def Named (list : MemberList) (names : List Endpoint) : Prop :=
  ∃ earlier, names = list.own :: earlier

namespace Attributed

/-- Only the puts of a list's own count. -/
theorem of_puts (attributed : Attributed list names) (sameTags : after.tags = list.tags)
    (sameReplica : after.store.replica = list.store.replica)
    (puts :
      ∀ uri, ∀ operation ∈ after.log uri, operation.replica = list.store.replica →
        operation.value.isSome = true → operation ∈ list.log uri) :
    Attributed after names where
  descending := attributed.descending
  announced operation held := by
    rw [sameReplica, sameTags]
    intro written put
    exact attributed.announced operation (puts _ operation held written put) written put
  once first firstHeld second secondHeld := by
    rw [sameReplica]
    intro firstWritten secondWritten firstPut secondPut sameKey
    exact
      attributed.once first (puts _ first firstHeld firstWritten firstPut) second
        (puts _ second secondHeld secondWritten secondPut) firstWritten secondWritten firstPut
        secondPut sameKey
  placed operation held := by
    rw [sameReplica]
    intro written put
    exact attributed.placed operation (puts _ operation held written put) written put

theorem absorb (attributed : Attributed list names) {store : Store}
    (absorbs : list.Absorbs store) :
    Attributed { list with store } names :=
  attributed.of_puts rfl absorbs.replica_eq fun _ _ held written _ =>
    absorbs.mem_log_of_own held written

theorem erase (attributed : Attributed list names) {uri : String} {edits : List Edit}
    (deletes : ∀ edit ∈ edits, edit.value = none) :
    Attributed (list.write uri edits).2 names :=
  attributed.of_puts tags_write replica_write fun _ _ held _ put =>
    mem_log_of_erase deletes held put

theorem place (attributed : Attributed list names) (ordered : Ordered list)
    {edits : List Edit} (present : list.own ∈ names)
    (puts : ∀ edit ∈ edits, ∃ agent, edit = .put (hostingKey agent list.own) list.own.key) :
    Attributed (list.write hostingUri edits).2 names where
  descending := attributed.descending
  announced operation held := by
    rw [replica_write, tags_write]
    rw [log_write_of_ne (by decide)] at held
    exact attributed.announced operation held
  once first firstHeld second secondHeld := by
    rw [replica_write]
    rw [log_write_of_ne (by decide)] at firstHeld secondHeld
    exact attributed.once first firstHeld second secondHeld
  placed operation held := by
    rw [replica_write]
    intro written put
    obtain ⟨more, appended, stems⟩ := ordered.log_write hostingUri edits hostingUri
    rw [appended] at held
    rcases List.mem_append.mp held with before | added
    · exact attributed.placed operation before written put
    · obtain ⟨edit, member, _, sameKey, sameValue⟩ := (stems operation added).2.1.exists_edit
      obtain ⟨agent, rfl⟩ := puts edit member
      exact ⟨agent, list.own, present, sameKey, sameValue⟩

/-- An endpoint that supersedes all before it is announced once. -/
theorem announce (attributed : Attributed list names)
    (later : ∀ name ∈ names, own.supersedes name = true) :
    Attributed (MemberList.announce { list with own }) (own :: names) := by
  obtain ⟨more, appended, single, written⟩ :=
    log_write_singleton { list with own } membershipUri (.put own.key list.tags.toText)
  have appendedHere :
      (MemberList.announce { list with own }).log membershipUri =
        list.log membershipUri ++ more :=
    appended
  have sameReplica :
      (MemberList.announce { list with own }).store.replica = list.store.replica :=
    replica_write
  have sameTags : (MemberList.announce { list with own }).tags = list.tags :=
    tags_write
  have newKey : own ∉ names := by
    intro member
    exact Endpoint.ne_of_supersedes (later own member) rfl
  have fresh :
      ∀ before ∈ list.log membershipUri, ∀ added ∈ more,
        before.replica = list.store.replica → before.value.isSome = true →
          before.key ≠ added.key := by
    intro before held added inside own put sameKey
    obtain ⟨_, name, member, named⟩ := attributed.announced before held own put
    rw [(written added inside).2.1, named] at sameKey
    rw [Endpoint.key_injective sameKey] at member
    exact newKey member
  refine
    { descending := List.pairwise_cons.mpr ⟨later, attributed.descending⟩
      announced := ?_
      once := ?_
      placed := ?_ }
  · intro operation held
    rw [sameReplica, sameTags]
    intro byOwn put
    rw [appendedHere] at held
    rcases List.mem_append.mp held with before | added
    · obtain ⟨value, name, member, named⟩ :=
        attributed.announced operation before byOwn put
      exact ⟨value, name, List.mem_cons_of_mem _ member, named⟩
    · obtain ⟨_, key, value⟩ := written operation added
      exact ⟨value, own, List.mem_cons_self, key⟩
  · intro first firstHeld second secondHeld
    rw [sameReplica]
    intro firstOwn secondOwn firstPut secondPut sameKey
    rw [appendedHere] at firstHeld secondHeld
    rcases List.mem_append.mp firstHeld with firstBefore | firstAdded <;>
      rcases List.mem_append.mp secondHeld with secondBefore | secondAdded
    · exact attributed.once first firstBefore second secondBefore firstOwn secondOwn firstPut
        secondPut sameKey
    · exact absurd sameKey (fresh first firstBefore second secondAdded firstOwn firstPut)
    · exact absurd sameKey.symm (fresh second secondBefore first firstAdded secondOwn secondPut)
    · exact single first firstAdded second secondAdded
  · intro operation held
    rw [sameReplica]
    intro byOwn put
    have before : operation ∈ list.log hostingUri := by
      have unchanged :
          (MemberList.announce { list with own }).log hostingUri = list.log hostingUri :=
        log_write_of_ne (by decide)
      rwa [unchanged] at held
    obtain ⟨agent, name, member, properties⟩ :=
      attributed.placed operation before byOwn put
    exact ⟨agent, name, List.mem_cons_of_mem _ member, properties⟩

end Attributed

/-- Whatever a list does of its own accord keeps its puts attributed. -/
theorem Evolves.attributed_named (evolved : Evolves start names list known)
    (ordered : Ordered start) (attributed : Attributed start names)
    (named : Named start names) :
    Attributed list known ∧ Named list known := by
  induction evolved with
  | refl => exact ⟨attributed, named⟩
  | erase _ _ deletes inductionHypothesis =>
      obtain ⟨attributedBefore, earlier, first⟩ := inductionHypothesis
      exact ⟨attributedBefore.erase deletes, earlier, by rw [own_write, first]⟩
  | place evolvedBefore puts inductionHypothesis =>
      obtain ⟨attributedBefore, earlier, first⟩ := inductionHypothesis
      have orderedBefore := (evolvedBefore.extends_ordered ordered).2
      refine
        ⟨attributedBefore.place orderedBefore ?_ puts, earlier, by rw [own_write, first]⟩
      rw [first]
      exact List.mem_cons_self
  | @rejoin before knownBefore own _ supersedes inductionHypothesis =>
      obtain ⟨attributedBefore, earlier, first⟩ := inductionHypothesis
      constructor
      · apply attributedBefore.announce
        intro name member
        have descending := attributedBefore.descending
        rw [first] at member descending
        rcases List.mem_cons.mp member with here | older
        · rw [here]
          exact supersedes
        · exact Endpoint.supersedes_trans supersedes
            ((List.pairwise_cons.mp descending).1 name older)
      · exact ⟨knownBefore, by rw [MemberList.announce, own_write]⟩
  | employ _ _ inductionHypothesis =>
      obtain ⟨attributedBefore, namedBefore⟩ := inductionHypothesis
      exact ⟨attributedBefore.of_puts rfl rfl fun _ _ held _ _ => held, namedBefore⟩
  | leave _ inductionHypothesis =>
      obtain ⟨attributedBefore, namedBefore⟩ := inductionHypothesis
      exact ⟨attributedBefore.of_puts rfl rfl fun _ _ held _ _ => held, namedBefore⟩

/-- A list stays on its host. -/
theorem Evolves.sameHost (evolved : Evolves start names list known) :
    list.own.sameHost start.own = true := by
  induction evolved with
  | refl => exact Endpoint.sameHost_iff.mpr ⟨rfl, rfl⟩
  | erase _ _ _ inductionHypothesis => rwa [own_write]
  | place _ _ inductionHypothesis => rwa [own_write]
  | rejoin _ supersedes inductionHypothesis =>
      rw [MemberList.announce, own_write]
      exact Endpoint.sameHost_trans (Endpoint.supersedes_iff.mp supersedes).1 inductionHypothesis
  | employ _ _ inductionHypothesis => exact inductionHypothesis
  | leave _ inductionHypothesis => exact inductionHypothesis

end Roster.MemberList
