import Mathlib.Data.List.Basic
import Roster.MemberList
import Roster.Proofs.Endpoint
import Roster.Proofs.SortedMap
import Roster.Proofs.Attempt

/-!
# How a member list changes by itself

Whatever a list does of its own accord is a series of five kinds of changes:
it deletes keys, it puts hosting entries of its own endpoint, it rejoins under
a later endpoint, it changes what it hosts, and it leaves.  What each kind
keeps is therefore kept by every operation.
-/

namespace Roster

namespace MemberList

variable {list : MemberList} {uri : String} {edits : List Edit}

/-! ## What an edit leaves alone -/

@[simp]
theorem own_write : (list.write uri edits).2.own = list.own := by
  unfold write
  split <;> rfl

theorem own_new (own : Endpoint) (tags : Tags) (replica : ReplicaId) :
    (new own tags replica).own = own :=
  own_write

@[simp]
theorem tags_write : (list.write uri edits).2.tags = list.tags := by
  unfold write
  split <;> rfl

@[simp]
theorem hosted_write : (list.write uri edits).2.hosted = list.hosted := by
  unfold write
  split <;> rfl

@[simp]
theorem stopped_write : (list.write uri edits).2.stopped = list.stopped := by
  unfold write
  split <;> rfl

@[simp]
theorem own_withdraw (endpoint : Endpoint) : (list.withdraw endpoint).2.own = list.own := by
  simp [withdraw]

@[simp]
theorem hosted_withdraw (endpoint : Endpoint) :
    (list.withdraw endpoint).2.hosted = list.hosted := by
  simp [withdraw]

@[simp]
theorem tags_withdraw (endpoint : Endpoint) : (list.withdraw endpoint).2.tags = list.tags := by
  simp [withdraw]

@[simp]
theorem own_host (agent : String) : (list.host agent).2.own = list.own := by
  unfold host whileRunning
  split <;> simp

@[simp]
theorem own_stopHosting (agent : String) : (list.stopHosting agent).2.own = list.own := by
  unfold stopHosting whileRunning
  split <;> simp

@[simp]
theorem own_remove (endpoint : Endpoint) : (list.remove endpoint).2.own = list.own := by
  unfold remove whileRunning
  split
  · rfl
  · split <;> simp

@[simp]
theorem own_stop : list.stop.own = list.own := by
  unfold stop
  split <;> simp

@[simp]
theorem own_withdrawOlder :
    ∀ (list : MemberList) (older : List Endpoint), (list.withdrawOlder older).own = list.own
  | _, [] => rfl
  | list, endpoint :: rest => by
      rw [withdrawOlder, own_withdrawOlder, own_withdraw]

@[simp]
theorem stopped_withdraw (endpoint : Endpoint) :
    (list.withdraw endpoint).2.stopped = list.stopped := by
  simp [withdraw]

theorem stopped_host (agent : String) : (list.host agent).2.stopped = list.stopped := by
  unfold host whileRunning
  split <;> simp

theorem stopped_stopHosting (agent : String) :
    (list.stopHosting agent).2.stopped = list.stopped := by
  unfold stopHosting whileRunning
  split <;> simp

theorem stopped_remove (endpoint : Endpoint) :
    (list.remove endpoint).2.stopped = list.stopped := by
  unfold remove whileRunning
  split
  · rfl
  · split <;> simp

theorem stopped_stop : list.stop.stopped = true := by
  unfold stop
  split
  · assumption
  · rfl

@[simp]
theorem tags_withdrawOlder :
    ∀ (list : MemberList) (older : List Endpoint), (list.withdrawOlder older).tags = list.tags
  | _, [] => rfl
  | list, endpoint :: rest => by
      rw [withdrawOlder, tags_withdrawOlder, tags_withdraw]

@[simp]
theorem hosted_withdrawOlder :
    ∀ (list : MemberList) (older : List Endpoint),
      (list.withdrawOlder older).hosted = list.hosted
  | _, [] => rfl
  | list, endpoint :: rest => by
      rw [withdrawOlder, hosted_withdrawOlder, hosted_withdraw]

@[simp]
theorem own_restoreHosting : list.restoreHosting.own = list.own := by
  simp [restoreHosting]

/-- The hosting entries of an endpoint are those with its key as value. -/
theorem mem_hostingDeletes_iff {endpoint : Endpoint} {edit : Edit} :
    edit ∈ list.hostingDeletes endpoint ↔
      ∃ key, (list.store.entries hostingUri).get? key = some endpoint.key ∧
        edit = .delete key := by
  unfold hostingDeletes
  rw [List.mem_filterMap]
  constructor
  · rintro ⟨⟨key, value⟩, entry, deletes⟩
    simp only [Option.ite_none_right_eq_some, Option.some.injEq] at deletes
    obtain ⟨rfl, rfl⟩ := deletes
    exact ⟨key, SortedMap.get?_eq_some_iff.mpr entry, rfl⟩
  · rintro ⟨key, found, rfl⟩
    exact ⟨(key, endpoint.key), SortedMap.get?_eq_some_iff.mp found, by simp⟩

theorem value_of_mem_hostingDeletes {endpoint : Endpoint} :
    ∀ edit ∈ list.hostingDeletes endpoint, edit.value = none := by
  intro edit member
  obtain ⟨_, _, rfl⟩ := mem_hostingDeletes_iff.mp member
  rfl

/-! ## Changes -/

/-- A list has come from another by changes of its own.  Beside each list
stand the endpoints it has had, the latest first. -/
inductive Evolves (start : MemberList) (names : List Endpoint) :
    MemberList → List Endpoint → Prop
  | refl : Evolves start names start names
  | erase {list : MemberList} {known : List Endpoint} {uri : String} {edits : List Edit} :
      Evolves start names list known → isKnownUri uri = true →
        (∀ edit ∈ edits, edit.value = none) →
          Evolves start names (list.write uri edits).2 known
  | place {list : MemberList} {known : List Endpoint} {edits : List Edit} :
      Evolves start names list known →
        (∀ edit ∈ edits, ∃ agent, edit = .put (hostingKey agent list.own) list.own.key) →
          Evolves start names (list.write hostingUri edits).2 known
  | rejoin {list : MemberList} {known : List Endpoint} {own : Endpoint} :
      Evolves start names list known → own.supersedes list.own = true →
        Evolves start names (announce { list with own }) (own :: known)
  | employ {list : MemberList} {known : List Endpoint} (hosted : SortedSet String) :
      Evolves start names list known → Evolves start names { list with hosted } known
  | leave {list : MemberList} {known : List Endpoint} :
      Evolves start names list known →
        Evolves start names { list with store := list.store.stop, stopped := true } known

namespace Evolves

variable {start list after : MemberList} {names known : List Endpoint}

theorem withdraw (evolved : Evolves start names list known) (endpoint : Endpoint) :
    Evolves start names (list.withdraw endpoint).2 known := by
  have removed :
      Evolves start names (list.write membershipUri [.delete endpoint.key]).2 known := by
    refine evolved.erase (by decide) ?_
    intro edit member
    rw [List.mem_singleton.mp member]
    rfl
  exact removed.erase (by decide) value_of_mem_hostingDeletes

theorem withdrawOlder :
    ∀ {older : List Endpoint} {list : MemberList},
      Evolves start names list known →
        Evolves start names (list.withdrawOlder older) known
  | [], _, evolved => evolved
  | endpoint :: _, _, evolved => (evolved.withdraw endpoint).withdrawOlder

theorem restoreHosting (evolved : Evolves start names list known) :
    Evolves start names list.restoreHosting known := by
  refine evolved.place ?_
  intro edit member
  obtain ⟨key, missing, rfl⟩ := List.mem_map.mp member
  obtain ⟨agent, _, rfl⟩ := List.mem_map.mp (List.mem_filter.mp missing).1
  exact ⟨agent, rfl⟩

theorem host (evolved : Evolves start names list known) (agent : String) :
    Evolves start names (list.host agent).2 known := by
  unfold MemberList.host whileRunning
  split
  · exact evolved
  · refine (evolved.employ (list.hosted.add agent)).place ?_
    intro edit member
    exact ⟨agent, List.mem_singleton.mp member⟩

theorem stopHosting (evolved : Evolves start names list known) (agent : String) :
    Evolves start names (list.stopHosting agent).2 known := by
  unfold MemberList.stopHosting whileRunning
  split
  · exact evolved
  · refine (evolved.employ (list.hosted.erase agent)).erase (by decide) ?_
    intro edit member
    rw [List.mem_singleton.mp member]
    rfl

theorem remove (evolved : Evolves start names list known) (endpoint : Endpoint) :
    Evolves start names (list.remove endpoint).2 known := by
  unfold MemberList.remove whileRunning
  split
  · exact evolved
  · split
    · exact evolved
    · exact evolved.withdraw endpoint

theorem stop (evolved : Evolves start names list known) :
    Evolves start names list.stop known := by
  unfold MemberList.stop
  split
  · exact evolved
  · exact (evolved.withdraw list.own).leave

end Evolves

/-! ## Rejoining -/

/-- The endpoints that a list has had, once its own endpoint may have
changed. -/
def renamed (names : List Endpoint) (before after : Endpoint) : List Endpoint :=
  if after = before then names else after :: names

@[simp]
theorem renamed_self (names : List Endpoint) (own : Endpoint) : renamed names own own = names :=
  if_pos rfl

private theorem renamed_of_supersedes {before after : Endpoint} (names : List Endpoint)
    (later : after.supersedes before = true) :
    renamed names before after = after :: names := by
  refine if_neg ?_
  rintro rfl
  exact absurd (Endpoint.supersedes_iff.mp later).2 (UInt64.lt_irrefl _)

/-- A list returns under an endpoint that supersedes the one it had. -/
theorem reincarnate_eq_ok {offered : UInt64} {after : MemberList}
    (returned : list.reincarnate offered = .ok after) :
    ∃ own : Endpoint, own.supersedes list.own = true ∧
      after =
        ((announce { list with own }).write hostingUri
          ((announce { list with own }).hostingDeletes list.own)).2 := by
  unfold reincarnate at returned
  simp only at returned
  by_cases fits : list.own.incarnation.toNat + 1 < Word.bound
  · rw [Word.add_eq_ok fits, Attempt.ok_bind] at returned
    cases returned
    refine ⟨_, ?_, rfl⟩
    rw [Endpoint.supersedes_iff]
    refine ⟨Endpoint.sameHost_iff.mpr ⟨rfl, rfl⟩, ?_⟩
    have least :
        list.own.incarnation < UInt64.ofNat (list.own.incarnation.toNat + 1) := by
      rw [UInt64.lt_iff_toNat_lt, UInt64.toNat_ofNat_of_lt' fits]
      exact Nat.lt_succ_self _
    exact UInt64.lt_of_lt_of_le least (Endpoint.le_nextIncarnation _ _)
  · rw [Word.add_eq_error (Nat.not_lt.mp fits)] at returned
    cases returned

theorem supersedes_of_reincarnate {offered : UInt64} {after : MemberList}
    (returned : list.reincarnate offered = .ok after) :
    after.own.supersedes list.own = true := by
  obtain ⟨own, later, rfl⟩ := reincarnate_eq_ok returned
  simpa [announce] using later

theorem Evolves.reincarnate {start after : MemberList} {names known : List Endpoint}
    {offered : UInt64} (evolved : Evolves start names list known)
    (returned : list.reincarnate offered = .ok after) :
    Evolves start names after (after.own :: known) := by
  obtain ⟨own, later, rfl⟩ := reincarnate_eq_ok returned
  have announcedOwn : (announce { list with own }).own = own := by
    simp [announce]
  rw [own_write, announcedOwn]
  exact (evolved.rejoin later).erase (by decide) value_of_mem_hostingDeletes

/-! ## Repair -/

/-- The list without the members that its own endpoint supersedes. -/
def cleaned (list : MemberList) : MemberList :=
  list.withdrawOlder (list.members.keys.filter list.own.supersedes)

@[simp]
theorem own_cleaned (list : MemberList) : list.cleaned.own = list.own :=
  own_withdrawOlder _ _

@[simp]
theorem tags_cleaned (list : MemberList) : list.cleaned.tags = list.tags :=
  tags_withdrawOlder _ _

@[simp]
theorem hosted_cleaned (list : MemberList) : list.cleaned.hosted = list.hosted :=
  hosted_withdrawOlder _ _

/-- The ways in which a repair goes: nothing had changed, the list was still a
member, or it returns. -/
inductive Repairs (list : MemberList) (offered : UInt64) :
    Bool → Outcome → MemberList → Prop
  | unchanged : Repairs list offered false { changed := false } list
  | restored :
      list.members.contains list.own = true →
        Repairs list offered true { changed := true } list.cleaned.restoreHosting
  | returned {next : MemberList} :
      list.members.contains list.own = false → list.cleaned.reincarnate offered = .ok next →
        Repairs list offered true { changed := true, reincarnated := some next.own }
          next.restoreHosting

theorem repairs_of_eq_ok {after : MemberList} {offered : UInt64} {changed : Bool}
    {outcome : Outcome} (repaired : list.repair offered changed = .ok (outcome, after)) :
    Repairs list offered changed outcome after := by
  cases changed with
  | false =>
      cases repaired
      exact Repairs.unchanged
  | true =>
      unfold repair at repaired
      simp only [Bool.not_true, Bool.false_eq_true, if_false] at repaired
      rw [← cleaned, own_cleaned] at repaired
      split at repaired
      · rename_i member
        cases repaired
        exact Repairs.restored member
      · rename_i absent
        obtain ⟨next, returned, same⟩ := Attempt.bind_eq_ok repaired
        cases same
        exact Repairs.returned (by simpa using absent) returned

/-- Where nothing changed there is nothing to repair. -/
theorem repair_unchanged {after : MemberList} {offered : UInt64} {outcome : Outcome}
    (repaired : list.repair offered false = .ok (outcome, after)) :
    after = list := by
  cases repairs_of_eq_ok repaired
  rfl

theorem Evolves.repair {start after : MemberList} {names known : List Endpoint}
    {offered : UInt64} {changed : Bool} {outcome : Outcome}
    (evolved : Evolves start names list known)
    (repaired : list.repair offered changed = .ok (outcome, after)) :
    Evolves start names after (renamed known list.own after.own) := by
  have evolvedCleaned : Evolves start names list.cleaned known := evolved.withdrawOlder
  cases repairs_of_eq_ok repaired with
  | unchanged => rwa [renamed_self]
  | restored _ => simpa using evolvedCleaned.restoreHosting
  | returned _ returned =>
      have later := supersedes_of_reincarnate returned
      rw [own_cleaned] at later
      rw [own_restoreHosting, renamed_of_supersedes known later]
      exact (evolvedCleaned.reincarnate returned).restoreHosting

end MemberList

end Roster
