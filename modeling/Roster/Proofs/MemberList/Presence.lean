import Roster.Proofs.MemberList.Import
import Roster.Proofs.MemberList.Views
import Roster.Proofs.Store.Batch

/-!
# How a member list stays present

A list is settled if its own endpoint has its entry with its tags, and exactly
the agents it hosts have entries at its endpoint.  Its own operations keep it
settled.  A merge can only take entries of its own away, and the repair after
it puts them back: the hosting entries alone, or all of them under a later
endpoint that nobody has named yet.
-/

namespace Roster.MemberList

variable {list after : MemberList} {uri key : String} {edits : List Edit} {own : Endpoint}

/-! ## Entries after an edit -/

theorem entries_write_of_ne {tested : String} (elsewhere : tested ≠ uri) :
    (list.write uri edits).2.store.entries tested = list.store.entries tested := by
  rw [entries_eq, entries_eq, log_write_of_ne elsewhere]

/-- Where all edits of a key agree, the key has what they say. -/
theorem get?_entries_write {value : Option String}
    (agree : ∀ edit ∈ edits, edit.key = key → edit.value = value) :
    ((list.write uri edits).2.store.entries uri).get? key =
      if ∃ edit ∈ edits, edit.key = key then value else (list.store.entries uri).get? key := by
  rw [Store.entries, document_write, if_pos rfl]
  exact Document.get?_entries_write agree

private theorem get?_entries_write_of_untouched (untouched : ∀ edit ∈ edits, edit.key ≠ key) :
    ((list.write uri edits).2.store.entries uri).get? key =
      (list.store.entries uri).get? key := by
  have none : ¬ ∃ edit ∈ edits, edit.key = key := by
    rintro ⟨edit, member, same⟩
    exact untouched edit member same
  have agree :
      ∀ edit ∈ edits, edit.key = key → edit.value = (list.store.entries uri).get? key :=
    fun edit member same => absurd same (untouched edit member)
  rw [get?_entries_write agree, if_neg none]

theorem get?_entries_write_singleton (list : MemberList) (uri key : String) (edit : Edit) :
    ((list.write uri [edit]).2.store.entries uri).get? key =
      if key = edit.key then edit.value else (list.store.entries uri).get? key := by
  by_cases here : key = edit.key
  · have agree : ∀ other ∈ [edit], other.key = key → other.value = edit.value := by
      intro other member _
      rw [List.mem_singleton.mp member]
    rw [get?_entries_write agree, if_pos ⟨edit, List.mem_cons_self, here.symm⟩, if_pos here]
  · have untouched : ∀ other ∈ [edit], other.key ≠ key := by
      intro other member same
      rw [List.mem_singleton.mp member] at same
      exact here same.symm
    rw [get?_entries_write_of_untouched untouched, if_neg here]

/-! ## Settled lists -/

/-- The hosting entries of the own endpoint are those of the hosted agents. -/
def HostsExactly (list : MemberList) : Prop :=
  ∀ agent, (list.store.entries hostingUri).get? (hostingKey agent list.own) =
    if list.hosted.contains agent then some list.own.key else none

/-- The own endpoint is present with its tags, and with what it hosts. -/
structure Settled (list : MemberList) : Prop where
  present : (list.store.entries membershipUri).get? list.own.key = some list.tags.toText
  hosting : list.HostsExactly

theorem settled_new (own : Endpoint) (tags : Tags) (replica : ReplicaId) :
    (new own tags replica).Settled where
  present := by
    simp only [new, announce, own_write, tags_write]
    rw [get?_entries_write_singleton]
    exact if_pos rfl
  hosting := by
    intro agent
    simp only [new, announce, own_write, hosted_write]
    rw [entries_write_of_ne (by decide)]
    rfl

namespace Settled

theorem host (settled : list.Settled) (agent : String) : (list.host agent).2.Settled := by
  unfold MemberList.host whileRunning
  split
  · exact settled
  · constructor
    · simp only [own_write, tags_write]
      rw [entries_write_of_ne (by decide)]
      exact settled.present
    · intro other
      simp only [own_write, hosted_write]
      rw [get?_entries_write_singleton]
      by_cases here : other = agent
      · subst here
        rw [if_pos ((SortedSet.contains_add _ _ _).mpr (Or.inl rfl))]
        exact if_pos rfl
      · have elsewhere : hostingKey other list.own ≠ hostingKey agent list.own :=
          fun same => here (hostingKey_left_injective same)
        have hosted :
            (list.hosted.add agent).contains other = list.hosted.contains other := by
          rw [Bool.eq_iff_iff, SortedSet.contains_add]
          simp [here]
        rw [hosted, ← settled.hosting other]
        exact if_neg elsewhere

theorem stopHosting (settled : list.Settled) (agent : String) :
    (list.stopHosting agent).2.Settled := by
  unfold MemberList.stopHosting whileRunning
  split
  · exact settled
  · constructor
    · simp only [own_write, tags_write]
      rw [entries_write_of_ne (by decide)]
      exact settled.present
    · intro other
      simp only [own_write, hosted_write]
      rw [get?_entries_write_singleton]
      by_cases here : other = agent
      · subst here
        have absent : ¬ (list.hosted.erase other).contains other = true := by
          rw [SortedSet.contains_erase]
          exact fun contained => contained.1 rfl
        rw [if_neg absent]
        exact if_pos rfl
      · have elsewhere : hostingKey other list.own ≠ hostingKey agent list.own :=
          fun same => here (hostingKey_left_injective same)
        have hosted :
            (list.hosted.erase agent).contains other = list.hosted.contains other := by
          rw [Bool.eq_iff_iff, SortedSet.contains_erase]
          simp [here]
        rw [hosted, ← settled.hosting other]
        exact if_neg elsewhere

end Settled

/-! ## Withdrawing others -/

/-- The key of the endpoint is gone and all others are as they were. -/
theorem get?_membership_withdraw (list : MemberList) (endpoint : Endpoint) (key : String) :
    ((list.withdraw endpoint).2.store.entries membershipUri).get? key =
      if key = endpoint.key then none else (list.store.entries membershipUri).get? key := by
  simp only [withdraw]
  rw [entries_write_of_ne (by decide), get?_entries_write_singleton]
  rfl

/-- To withdraw another endpoint leaves the own entry alone. -/
private theorem get?_withdraw_of_ne {endpoint : Endpoint} (other : endpoint ≠ own) :
    ((list.withdraw endpoint).2.store.entries membershipUri).get? own.key =
      (list.store.entries membershipUri).get? own.key := by
  rw [get?_membership_withdraw]
  exact if_neg fun same => other (Endpoint.key_injective same).symm

/-- Of the hosting entries those that name the endpoint are deleted. -/
theorem get?_write_hostingDeletes (list : MemberList) (endpoint : Endpoint) (key : String) :
    ((list.write hostingUri (list.hostingDeletes endpoint)).2.store.entries hostingUri).get? key =
      ((list.store.entries hostingUri).get? key).filter (· ≠ endpoint.key) := by
  rw [get?_entries_write fun edit member _ => value_of_mem_hostingDeletes edit member]
  have touched :
      (∃ edit ∈ list.hostingDeletes endpoint, edit.key = key) ↔
        (list.store.entries hostingUri).get? key = some endpoint.key := by
    constructor
    · rintro ⟨edit, member, rfl⟩
      obtain ⟨deleted, found, rfl⟩ := mem_hostingDeletes_iff.mp member
      exact found
    · intro found
      exact ⟨.delete key, mem_hostingDeletes_iff.mpr ⟨key, found, rfl⟩, rfl⟩
  simp only [touched]
  cases (list.store.entries hostingUri).get? key with
  | none => simp
  | some value => by_cases named : value = endpoint.key <;> simp [named, Option.filter_some]

/-- A hosting entry is gone exactly if it named the endpoint. -/
theorem get?_hosting_withdraw_eq (list : MemberList) (endpoint : Endpoint) (key : String) :
    ((list.withdraw endpoint).2.store.entries hostingUri).get? key =
      ((list.store.entries hostingUri).get? key).filter (· ≠ endpoint.key) := by
  simp only [withdraw]
  rw [get?_write_hostingDeletes, entries_write_of_ne (by decide)]

/-- A hosting entry is as it was, or it named the endpoint and is gone. -/
private theorem get?_hosting_withdraw (endpoint : Endpoint) (key : String) :
    ((list.withdraw endpoint).2.store.entries hostingUri).get? key =
        (list.store.entries hostingUri).get? key ∨
      (list.store.entries hostingUri).get? key = some endpoint.key ∧
        ((list.withdraw endpoint).2.store.entries hostingUri).get? key = none := by
  rw [get?_hosting_withdraw_eq]
  cases (list.store.entries hostingUri).get? key with
  | none => exact Or.inl rfl
  | some value => by_cases named : value = endpoint.key <;> simp [named, Option.filter_some]

theorem Settled.remove (settled : list.Settled) (endpoint : Endpoint) :
    (list.remove endpoint).2.Settled := by
  unfold MemberList.remove whileRunning
  split
  · exact settled
  · split
    · exact settled
    · rename_i other
      constructor
      · simp only [own_withdraw, tags_withdraw]
        rw [get?_withdraw_of_ne other]
        exact settled.present
      · intro agent
        simp only [own_withdraw, hosted_withdraw]
        rcases get?_hosting_withdraw endpoint (hostingKey agent list.own) with
          same | ⟨named, _⟩
        · rw [same]
          exact settled.hosting agent
        · rw [settled.hosting agent] at named
          split at named
          · exact absurd (Endpoint.key_injective (Option.some.inj named)).symm other
          · cases named

/-! ## Restoring hosting entries -/

/-- A hosting entry of the own endpoint is right or missing. -/
def HostsAtMost (list : MemberList) : Prop :=
  ∀ agent,
    (list.store.entries hostingUri).get? (hostingKey agent list.own) =
        (if list.hosted.contains agent then some list.own.key else none) ∨
      (list.store.entries hostingUri).get? (hostingKey agent list.own) = none

/-- Puts of the hosting entries that are missing. -/
def missingPuts (list : MemberList) : List Edit :=
  ((list.hosted.keys.map (hostingKey · list.own)).filter fun key =>
    !(list.store.entries hostingUri).contains key).map fun key => Edit.put key list.own.key

theorem restoreHosting_eq (list : MemberList) :
    list.restoreHosting = (list.write hostingUri list.missingPuts).2 :=
  rfl

theorem mem_missingPuts_iff {edit : Edit} :
    edit ∈ list.missingPuts ↔
      ∃ agent, list.hosted.contains agent = true ∧
        (list.store.entries hostingUri).get? (hostingKey agent list.own) = none ∧
          edit = .put (hostingKey agent list.own) list.own.key := by
  unfold missingPuts
  rw [List.mem_map]
  constructor
  · rintro ⟨key, missing, rfl⟩
    obtain ⟨hosted, absent⟩ := List.mem_filter.mp missing
    obtain ⟨agent, member, rfl⟩ := List.mem_map.mp hosted
    refine ⟨agent, SortedMap.mem_keys_iff.mp member, ?_, rfl⟩
    exact SortedMap.contains_eq_false_iff.mp (by simpa using absent)
  · rintro ⟨agent, hosted, absent, rfl⟩
    refine ⟨hostingKey agent list.own, List.mem_filter.mpr ⟨?_, ?_⟩, rfl⟩
    · exact List.mem_map.mpr ⟨agent, SortedMap.mem_keys_iff.mpr hosted, rfl⟩
    · simp [SortedMap.contains_eq_false_iff.mpr absent]

/-- What is missing is restored. -/
private theorem hostsExactly_restoreHosting (atMost : list.HostsAtMost) :
    list.restoreHosting.HostsExactly := by
  intro agent
  have agree :
      ∀ edit ∈ list.missingPuts,
        edit.key = hostingKey agent list.own → edit.value = some list.own.key := by
    intro edit member _
    obtain ⟨_, _, _, rfl⟩ := mem_missingPuts_iff.mp member
    rfl
  rw [restoreHosting_eq, own_write, hosted_write, get?_entries_write agree]
  split
  · rename_i restored
    obtain ⟨edit, member, sameKey⟩ := restored
    obtain ⟨other, hosted, _, rfl⟩ := mem_missingPuts_iff.mp member
    rw [← hostingKey_left_injective sameKey, if_pos hosted]
  · rename_i untouched
    rcases atMost agent with right | missing
    · exact right
    · by_cases hosted : list.hosted.contains agent = true
      · exact absurd ⟨_, mem_missingPuts_iff.mpr ⟨agent, hosted, missing, rfl⟩, rfl⟩ untouched
      · rw [missing, if_neg hosted]

/-! ## Taking entries away -/

/-- Hosting entries are as they were, or gone. -/
def Dwindles (before after : MemberList) : Prop :=
  ∀ key, (after.store.entries hostingUri).get? key =
      (before.store.entries hostingUri).get? key ∨
    (after.store.entries hostingUri).get? key = none

namespace Dwindles

variable {before : MemberList}

private theorem of_entries
    (same : after.store.entries hostingUri = before.store.entries hostingUri) :
    Dwindles before after := by
  intro key
  rw [same]
  exact Or.inl rfl

theorem trans (first : Dwindles before list) (second : Dwindles list after) :
    Dwindles before after := by
  intro key
  rcases second key with same | gone
  · rw [same]
    exact first key
  · exact Or.inr gone

private theorem of_erase (deletes : ∀ edit ∈ edits, edit.value = none) :
    Dwindles list (list.write hostingUri edits).2 := by
  intro key
  rw [get?_entries_write fun edit member _ => deletes edit member]
  split
  · exact Or.inr rfl
  · exact Or.inl rfl

private theorem of_withdraw (endpoint : Endpoint) : Dwindles list (list.withdraw endpoint).2 := by
  intro key
  rcases get?_hosting_withdraw endpoint key with same | ⟨_, gone⟩
  · exact Or.inl same
  · exact Or.inr gone

private theorem of_withdrawOlder :
    ∀ (list : MemberList) (older : List Endpoint), Dwindles list (list.withdrawOlder older)
  | _, [] => of_entries rfl
  | _, endpoint :: rest => (of_withdraw endpoint).trans (of_withdrawOlder _ rest)

theorem get?_eq_none (dwindles : Dwindles before after)
    (absent : (before.store.entries hostingUri).get? key = none) :
    (after.store.entries hostingUri).get? key = none := by
  rcases dwindles key with same | gone
  · rw [same, absent]
  · exact gone

private theorem hostsAtMost (dwindles : Dwindles before after) (atMost : before.HostsAtMost)
    (sameOwn : after.own = before.own) (sameHosted : after.hosted = before.hosted) :
    after.HostsAtMost := by
  intro agent
  rw [sameOwn, sameHosted]
  rcases atMost agent with right | missing
  · rcases dwindles (hostingKey agent before.own) with same | gone
    · rw [same]
      exact Or.inl right
    · exact Or.inr gone
  · exact Or.inr (dwindles.get?_eq_none missing)

end Dwindles

theorem get?_membership_withdrawOlder {value : String} :
    ∀ {older : List Endpoint} {list : MemberList},
      ((list.withdrawOlder older).store.entries membershipUri).get? key = some value ↔
        (list.store.entries membershipUri).get? key = some value ∧
          ∀ endpoint ∈ older, key ≠ endpoint.key
  | [], list => by simp [withdrawOlder]
  | endpoint :: rest, list => by
      rw [withdrawOlder, get?_membership_withdrawOlder, get?_membership_withdraw]
      simp only [List.forall_mem_cons]
      split <;> simp_all

private theorem get?_withdrawOlder {older : List Endpoint}
    (others : ∀ endpoint ∈ older, endpoint ≠ own) :
    ((list.withdrawOlder older).store.entries membershipUri).get? own.key =
      (list.store.entries membershipUri).get? own.key := by
  ext value
  rw [get?_membership_withdrawOlder]
  refine and_iff_left fun endpoint member same => others endpoint member ?_
  exact (Endpoint.key_injective same).symm

/-! ## Repair -/

/-- What a merge may leave behind: entries of the own endpoint may be missing
but none is wrong, the key of every member is read back, and no later endpoint
of the own host has hosting entries. -/
structure Mendable (list : MemberList) : Prop where
  present : (list.store.entries membershipUri).get? list.own.key = some list.tags.toText ∨
    (list.store.entries membershipUri).get? list.own.key = none
  readable : ∀ key, (list.store.entries membershipUri).contains key = true →
    ∃ name : Endpoint, name.ReadsBack ∧ key = name.key
  hosting : list.HostsAtMost
  fresh : ∀ later : Endpoint, later.supersedes list.own = true → ∀ agent,
    (list.store.entries hostingUri).get? (hostingKey agent later) = none

/-- A member has its own key in the membership map. -/
private theorem Mendable.contains_of_members (mendable : list.Mendable) {endpoint : Endpoint}
    (member : list.members.contains endpoint = true) :
    (list.store.entries membershipUri).contains endpoint.key = true := by
  obtain ⟨key, value, found, read⟩ := exists_entry_of_contains_members member
  have contained : (list.store.entries membershipUri).contains key = true :=
    SortedMap.contains_iff.mpr ⟨value, found⟩
  obtain ⟨name, readsBack, rfl⟩ := mendable.readable key contained
  have same : some name = some endpoint := readsBack.symm.trans read
  rwa [← Option.some.inj same]

/-- A list that has its entry and no wrong hosting entry is settled by restoring
those that are missing. -/
private theorem settled_restoreHosting
    (present : (list.store.entries membershipUri).get? list.own.key = some list.tags.toText)
    (atMost : list.HostsAtMost) :
    list.restoreHosting.Settled where
  present := by
    rw [restoreHosting_eq, own_write, tags_write, entries_write_of_ne (by decide)]
    exact present
  hosting := hostsExactly_restoreHosting atMost

/-- A list that returns is settled by restoring its hosting entries, if no later
endpoint of its host had any. -/
private theorem settled_of_reincarnate {offered : UInt64} {next : MemberList}
    (returned : list.reincarnate offered = .ok next)
    (fresh :
      ∀ later : Endpoint, later.supersedes list.own = true → ∀ agent,
        (list.store.entries hostingUri).get? (hostingKey agent later) = none) :
    next.restoreHosting.Settled := by
  obtain ⟨own, later, rfl⟩ := reincarnate_eq_ok returned
  apply settled_restoreHosting
  · rw [entries_write_of_ne (by decide)]
    simp only [announce, own_write, tags_write]
    rw [get?_entries_write_singleton]
    exact if_pos rfl
  · intro agent
    have announced : Dwindles list (announce { list with own }) :=
      Dwindles.of_entries (entries_write_of_ne (by decide))
    have deletes :
        ∀ edit ∈ (announce { list with own }).hostingDeletes list.own, edit.value = none :=
      value_of_mem_hostingDeletes
    have cleared := announced.trans (Dwindles.of_erase deletes)
    refine Or.inr (cleared.get?_eq_none ?_)
    simp only [announce, own_write]
    exact fresh own later agent

/-- The repair after a merge settles a list. -/
theorem Mendable.settled_of_repair (mendable : list.Mendable) {offered : UInt64}
    {made : Outcome} (repaired : list.repair offered true = .ok (made, after)) :
    after.Settled := by
  have dwindles : Dwindles list list.cleaned :=
    Dwindles.of_withdrawOlder list _
  cases repairs_of_eq_ok repaired with
  | restored member =>
      have others :
          ∀ endpoint ∈ list.members.keys.filter list.own.supersedes, endpoint ≠ list.own := by
        intro endpoint older
        exact (Endpoint.ne_of_supersedes (List.mem_filter.mp older).2).symm
      apply settled_restoreHosting
      · have contained := mendable.contains_of_members member
        rw [own_cleaned, tags_cleaned, cleaned, get?_withdrawOlder others]
        rcases mendable.present with present | missing
        · exact present
        · rw [SortedMap.contains_eq_false_iff.mpr missing] at contained
          cases contained
      · exact dwindles.hostsAtMost mendable.hosting (own_cleaned list) (hosted_cleaned list)
  | returned _ returned =>
      apply settled_of_reincarnate returned
      intro later supersedes agent
      rw [own_cleaned] at supersedes
      exact dwindles.get?_eq_none (mendable.fresh later supersedes agent)

end Roster.MemberList
