import Roster.Proofs.Federation.Presence

/-!
# Refused merges

A batch holds at most one delta for each of the two maps, and that of the
hosting map is imported first.  If a delta cannot be read the merge is refused
and nothing is repaired.  The membership map is then as it was.  The hosting map
is as it was too, unless its delta could be read and that of the membership map
could not: it then has what the delta says, and agents that the list hosts may
be missing.
-/

namespace Roster

namespace MemberList

variable {list after : MemberList} {offered : UInt64} {batch : Batch} {fault : Fault}
  {operations : List Operation}

/-- The deltas of a batch that a list imports, in the order of their maps. -/
private theorem entries_filter_isKnownUri (batch : Batch) :
    (batch.filter fun uri _ => isKnownUri uri).entries =
      (batch.get? hostingUri).toList.map (hostingUri, ·) ++
        (batch.get? membershipUri).toList.map (membershipUri, ·) := by
  apply SortedMap.entries_eq_of_mem_iff (SortedMap.ascending _)
  · have below : compare hostingUri membershipUri = .lt := by decide
    cases batch.get? hostingUri <;> cases batch.get? membershipUri <;> simp [below]
  · rintro ⟨uri, delta⟩
    rw [← SortedMap.get?_eq_some_iff, SortedMap.get?_filter, Option.filter_eq_some_iff]
    simp only [isKnownUri, List.mem_append, List.mem_map, Option.mem_toList, Prod.mk.injEq,
      Bool.or_eq_true, beq_iff_eq]
    constructor
    · rintro ⟨found, rfl | rfl⟩
      · exact Or.inr ⟨delta, found, rfl, rfl⟩
      · exact Or.inl ⟨delta, found, rfl, rfl⟩
    · rintro (⟨_, found, rfl, rfl⟩ | ⟨_, found, rfl, rfl⟩)
      · exact ⟨found, Or.inr rfl⟩
      · exact ⟨found, Or.inl rfl⟩

/-- Only the delta of the hosting map comes before another. -/
private theorem earlier_of_entries_filter {earlier later : List (String × Bytes)} {uri : String}
    {delta : Bytes}
    (split : (batch.filter fun uri _ => isKnownUri uri).entries = earlier ++ (uri, delta) :: later) :
    earlier = [] ∨
      ∃ taken, earlier = [(hostingUri, taken)] ∧ uri = membershipUri ∧
        batch.get? hostingUri = some taken ∧ batch.get? membershipUri = some delta := by
  rw [entries_filter_isKnownUri] at split
  cases earlier with
  | nil => exact Or.inl rfl
  | cons first rest =>
      right
      cases hosting : batch.get? hostingUri with
      | none =>
          cases membership : batch.get? membershipUri <;> simp [hosting, membership] at split
      | some taken =>
          cases membership : batch.get? membershipUri with
          | none => simp [hosting, membership] at split
          | some bad =>
              cases rest with
              | cons second others => simp [hosting, membership] at split
              | nil =>
                  simp only [hosting, membership, Option.toList_some, List.map_cons,
                    List.map_nil, List.cons_append, List.nil_append, List.cons.injEq,
                    Prod.mk.injEq] at split
                  obtain ⟨rfl, ⟨rfl, rfl⟩, _⟩ := split
                  exact ⟨taken, rfl, rfl, rfl, rfl⟩

/-- A batch has these operations for the hosting map, and bytes that are no
delta for the membership map. -/
structure HalfReadable (batch : Batch) (operations : List Operation) : Prop where
  hosting : (batch.get? hostingUri).bind Delta.ofBytes? = some operations
  membership : ∃ delta, batch.get? membershipUri = some delta ∧ Delta.ofBytes? delta = none

/-- What such a batch leaves of a list. -/
def halfMerged (list : MemberList) (operations : List Operation) : MemberList :=
  { list with
    store :=
      (list.store.keep hostingUri
          ((list.store.document hostingUri).receive operations)).keep membershipUri
        (list.store.document membershipUri) }

/-- What is refused leaves the list as it was after the import. -/
private theorem afterImport_error {changed : Except Fault Bool}
    (imported : list.afterImport offered changed = .ok (.error fault, after)) :
    changed = .error fault ∧ after = list := by
  cases changed with
  | error refusal =>
      cases imported
      exact ⟨rfl, rfl⟩
  | ok changed =>
      obtain ⟨_, repaired, same⟩ := Attempt.bind_eq_ok imported
      cases same

/-- A merge is refused because of a delta that cannot be read.  The documents
are then as they were, or the hosting map alone has been imported. -/
private theorem refused_merge (running : list.stopped = false)
    (storeRunning : list.store.stopped = false)
    (merged : list.merge offered batch = .ok (.error fault, after)) :
    fault = .store .unreadable ∧
      ((∃ store, after = { list with store } ∧
          ∀ uri, store.document uri = list.store.document uri) ∨
        ∃ operations, HalfReadable batch operations ∧ after = list.halfMerged operations) := by
  rw [merge, if_neg (by simp [running])] at merged
  cases imported : list.store.merge (batch.filter fun uri _ => isKnownUri uri) with
  | mk result store =>
      simp only [imported] at merged
      obtain ⟨refused, rfl⟩ := afterImport_error merged
      cases result with
      | ok uris => cases refused
      | error storeFault =>
          cases refused
          obtain ⟨earlier, uri, delta, later, between, split, unreadable, rfl, ⟨uris, taken⟩,
            rfl⟩ := Store.receiveAll_eq_error storeRunning imported
          refine ⟨rfl, ?_⟩
          rcases earlier_of_entries_filter split with
            rfl | ⟨hostingDelta, rfl, rfl, hosting, membership⟩
          · cases taken
            refine Or.inl ⟨_, rfl, fun tested => ?_⟩
            rw [Store.document_keep]
            split
            · rename_i here
              rw [here]
            · rfl
          · cases read : Delta.ofBytes? hostingDelta with
            | none =>
                rw [Store.receiveAll, Store.receive_unreadable storeRunning read] at taken
                cases taken
            | some operations =>
                rw [Store.receiveAll, Store.receive_eq storeRunning read] at taken
                cases taken
                refine Or.inr ⟨operations, ⟨?_, delta, membership, unreadable⟩, ?_⟩
                · rw [hosting]
                  exact read
                · rw [halfMerged, Store.document_keep_of_ne _ _ (by decide)]

/-- A batch of which the hosting map alone can be read is always refused, and
what it says of that map stands without a repair. -/
private theorem merge_of_halfReadable (running : list.stopped = false)
    (storeRunning : list.store.stopped = false) (half : HalfReadable batch operations) :
    list.merge offered batch = .ok (.error (.store .unreadable), list.halfMerged operations) := by
  obtain ⟨bad, membership, unreadable⟩ := half.membership
  obtain ⟨delta, hosting, readable⟩ := Option.bind_eq_some_iff.mp half.hosting
  have stillRunning :
      (list.store.keep hostingUri
        ((list.store.document hostingUri).receive operations)).stopped = false :=
    storeRunning
  rw [merge, if_neg (by simp [running]), Store.merge, entries_filter_isKnownUri, hosting,
    membership]
  simp only [Option.toList_some, List.map_cons, List.map_nil, List.cons_append,
    List.nil_append, Store.receiveAll, Store.receive_eq storeRunning readable,
    Store.receive_unreadable stillRunning unreadable]
  rw [Store.document_keep_of_ne _ _ (by decide)]
  rfl

end MemberList

namespace Federation

universe u

variable {ι : Type u} [DecidableEq ι] {founders : ι → Founder} {federation : Federation ι}

/-- A merge that is refused leaves a list its members, itself among them, and
all entries, unless the hosting map alone could be read: then the list is left
with that map as the batch would have it. -/
theorem present_of_refused_merge (distinct : DistinctReplicas founders)
    (hosts : DistinctHosts founders) (reachable : Reachable founders federation) {member : ι}
    (running : (federation.lists member).stopped = false) {offered : UInt64} {batch : Batch}
    {fault : MemberList.Fault} {after : MemberList}
    (merged : (federation.lists member).merge offered batch = .ok (.error fault, after)) :
    after.store.entries membershipUri = (federation.lists member).store.entries membershipUri ∧
      after.members.get? after.own = some (founders member).tags ∧
        ((∀ uri, after.store.entries uri = (federation.lists member).store.entries uri) ∧
            after.HostsExactly ∨
          ∃ operations, MemberList.HalfReadable batch operations ∧
            after = (federation.lists member).halfMerged operations) := by
  have sound := (coherent_of_reachable distinct reachable).sound member
  have settled := settled_of_reachable distinct hosts reachable member running
  have present := (own_endpoint_present distinct hosts reachable running).1
  obtain ⟨_, ⟨store, rfl, same⟩ | ⟨operations, half, rfl⟩⟩ :=
    MemberList.refused_merge running (sound.both_stopped.trans running) merged
  · have sameEntries :
        ∀ uri, store.entries uri = (federation.lists member).store.entries uri := by
      intro uri
      rw [Store.entries, same uri]
      rfl
    refine ⟨sameEntries membershipUri, ?_, Or.inl ⟨sameEntries, ?_⟩⟩
    · have sameMembers :
          ({ federation.lists member with store } : MemberList).members =
            (federation.lists member).members :=
        MemberList.members_congr (sameEntries membershipUri)
      rw [sameMembers]
      exact present
    · intro agent
      rw [sameEntries hostingUri]
      exact settled.hosting agent
  · have sameEntries :
        ((federation.lists member).halfMerged operations).store.entries membershipUri =
          (federation.lists member).store.entries membershipUri := by
      rw [MemberList.halfMerged, Store.entries, Store.document_keep_self]
      rfl
    refine ⟨sameEntries, ?_, Or.inr ⟨operations, half, rfl⟩⟩
    rw [MemberList.members_congr sameEntries]
    exact present

def hosting : Federation Bool :=
  (start pair).put false (((start pair).lists false).host "one").2

private theorem reachable_hosting : Reachable pair hosting :=
  Relation.ReflTransGen.single (Step.host false "one")

theorem running_hosting : (hosting.lists false).stopped = false := by
  decide +kernel

def eviction : List Operation :=
  [{ replica := (pair true).replica
     counter := 0
     lamport := 1
     needs := Version.empty
     map := hostingUri
     key := MemberList.hostingKey "one" (pair false).own
     value := none }]

/-- A batch that was cut off after the eviction. -/
def cutOff : Batch :=
  SortedMap.ofList [(hostingUri, Delta.toBytes eviction), (membershipUri, [])]

private theorem merge_cutOff :
    (hosting.lists false).merge 9 cutOff =
      .ok (.error (.store .unreadable), (hosting.lists false).halfMerged eviction) := by
  apply MemberList.merge_of_halfReadable running_hosting
  · decide +kernel
  · exact
      { hosting := Delta.ofBytes?_toBytes eviction
        membership := ⟨[], rfl, rfl⟩ }

theorem present_of_refused_merge_cutOff :
    let after := (hosting.lists false).halfMerged eviction
    DistinctReplicas pair ∧ DistinctHosts pair ∧ Reachable pair hosting ∧
      (hosting.lists false).stopped = false ∧
        (hosting.lists false).merge 9 cutOff = .ok (.error (.store .unreadable), after) ∧
          after.store.entries membershipUri =
              (hosting.lists false).store.entries membershipUri ∧
            after.members.get? after.own = some (pair false).tags := by
  have kept :=
    present_of_refused_merge distinctReplicas_pair distinctHosts_pair reachable_hosting
      running_hosting merge_cutOff
  exact
    ⟨distinctReplicas_pair, distinctHosts_pair, reachable_hosting, running_hosting,
      merge_cutOff, kept.1, kept.2.1⟩

/-- A refused merge can take away agents that a list hosts. -/
theorem hosted_lost_by_refused_merge :
    Reachable pair hosting ∧ (hosting.lists false).stopped = false ∧
      ∃ after,
        (hosting.lists false).merge 9 cutOff = .ok (.error (.store .unreadable), after) ∧
          after.hosted.contains "one" = true ∧
            (hosting.lists false).landscape.Hosts "one" (pair false).own ∧
              ¬ after.landscape.Hosts "one" (pair false).own :=
  ⟨reachable_hosting, running_hosting, _, merge_cutOff, by decide +kernel, by decide +kernel,
    by decide +kernel⟩

end Federation

end Roster
