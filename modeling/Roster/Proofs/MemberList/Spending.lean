import Mathlib.Data.List.Nodup
import Mathlib.Data.List.Perm.Subperm
import Roster.Proofs.MemberList.Attribution
import Roster.Proofs.MemberList.Presence

/-!
# What a repair costs

A repair never writes for free.  To delete a key of its host a list must find
it, to delete a hosting entry of an earlier endpoint it must find it, and to
put back a hosting entry of its own it must miss it; each of these is gone
afterwards.  What a list has written, together with what it may still find or
miss, therefore grows only where the list returns under a later endpoint.

Hosting entries that are missing do come back: whoever deletes one gives the
list a reason to put it again.  The deletes in the log pay for that.
-/

namespace Roster.MemberList

variable {list after : MemberList} {uri : String} {edits : List Edit} {own : Endpoint}
  {more : List Operation}

/-! ## What a list has written -/

/-- The operations that a list has written on the membership map. -/
def notices (list : MemberList) : Nat :=
  (list.log membershipUri).countP fun operation => operation.replica == list.store.replica

def dismissals (list : MemberList) : Nat :=
  (list.log hostingUri).countP fun operation =>
    operation.replica == list.store.replica && operation.value.isNone

def placements (list : MemberList) : Nat :=
  (list.log hostingUri).countP fun operation =>
    operation.replica == list.store.replica && operation.value.isSome

/-- The deletes of hosting entries that a list has heard of, its own included. -/
def erasures (list : MemberList) : Nat :=
  (list.log hostingUri).countP (·.value.isNone)

def written (list : MemberList) : Nat :=
  list.notices + list.dismissals + list.placements

private theorem dismissals_add_placements (list : MemberList) :
    list.dismissals + list.placements =
      (list.log hostingUri).countP fun operation =>
        operation.replica == list.store.replica := by
  unfold dismissals placements
  induction list.log hostingUri with
  | nil => rfl
  | cons operation rest inductionHypothesis =>
      simp only [List.countP_cons]
      rw [← inductionHypothesis]
      cases operation.replica == list.store.replica <;> cases operation.value <;>
        simp <;> omega

/-- Of what is appended to a log at most everything counts. -/
theorem countP_append_le {counted : Operation → Bool}
    (appended : after.log uri = list.log uri ++ more) :
    (after.log uri).countP counted ≤ (list.log uri).countP counted + more.length := by
  rw [appended, List.countP_append]
  exact Nat.add_le_add_left List.countP_le_length _

theorem erasures_append (appended : after.log hostingUri = list.log hostingUri ++ more) :
    after.erasures = list.erasures + more.countP (·.value.isNone) := by
  rw [erasures, appended, List.countP_append, erasures]

/-! ## What a list may find or miss -/

/-- The members that are endpoints of the list's host. -/
def homeKeys (list : MemberList) : List String :=
  ((list.store.entries membershipUri).filter fun key _ => list.own.keyOfHost key).keys

/-- The hosting entries of other endpoints of the list's host. -/
def staleKeys (list : MemberList) : List String :=
  ((list.store.entries hostingUri).filter fun _ value =>
    list.own.keyOfHost value && value != list.own.key).keys

/-- The hosted agents that have no entry at the own endpoint. -/
def bareAgents (list : MemberList) : List String :=
  list.hosted.keys.filter fun agent =>
    !(list.store.entries hostingUri).contains (hostingKey agent list.own)

theorem mem_homeKeys_iff {key : String} :
    key ∈ list.homeKeys ↔
      list.own.keyOfHost key = true ∧
        ∃ value, (list.store.entries membershipUri).get? key = some value := by
  unfold homeKeys
  rw [SortedMap.mem_keys_iff, SortedMap.contains_iff]
  simp only [SortedMap.get?_filter, Option.filter_eq_some_iff]
  constructor
  · rintro ⟨value, found, home⟩
    exact ⟨home, value, found⟩
  · rintro ⟨home, value, found⟩
    exact ⟨value, found, home⟩

theorem mem_staleKeys_iff {key : String} :
    key ∈ list.staleKeys ↔
      ∃ endpoint : Endpoint, endpoint.sameHost list.own = true ∧ endpoint ≠ list.own ∧
        (list.store.entries hostingUri).get? key = some endpoint.key := by
  unfold staleKeys
  rw [SortedMap.mem_keys_iff, SortedMap.contains_iff]
  simp only [SortedMap.get?_filter, Option.filter_eq_some_iff, Bool.and_eq_true, bne_iff_ne]
  constructor
  · rintro ⟨value, found, home, other⟩
    obtain ⟨endpoint, sameHost, rfl⟩ := Endpoint.keyOfHost_iff.mp home
    exact ⟨endpoint, sameHost, fun same => other (by rw [same]), found⟩
  · rintro ⟨endpoint, sameHost, other, found⟩
    exact
      ⟨endpoint.key, found, Endpoint.keyOfHost_iff.mpr ⟨endpoint, sameHost, rfl⟩,
        fun same => other (Endpoint.key_injective same)⟩

private theorem mem_bareAgents_iff {agent : String} :
    agent ∈ list.bareAgents ↔
      list.hosted.contains agent = true ∧
        (list.store.entries hostingUri).get? (hostingKey agent list.own) = none := by
  unfold bareAgents
  rw [List.mem_filter, SortedMap.mem_keys_iff, Bool.not_eq_true',
    SortedMap.contains_eq_false_iff]

private theorem nodup_homeKeys (list : MemberList) : list.homeKeys.Nodup :=
  SortedMap.nodup_keys _

theorem nodup_staleKeys (list : MemberList) : list.staleKeys.Nodup :=
  SortedMap.nodup_keys _

private theorem nodup_bareAgents (list : MemberList) : list.bareAgents.Nodup :=
  (SortedMap.nodup_keys _).filter _

private theorem length_bareAgents_le (list : MemberList) :
    list.bareAgents.length ≤ list.hosted.size := by
  have within : list.bareAgents.length ≤ list.hosted.keys.length :=
    List.length_filter_le _ _
  rwa [SortedMap.keys, List.length_map] at within

/-! ## Spending -/

/-- What was written since was found or missed before, up to what the returns
in between have `announced`, `displaced` and `vacated`. -/
structure Spends (before after : MemberList) (announced displaced vacated : Nat) : Prop where
  hosted_eq : after.hosted = before.hosted
  notices_le :
    after.notices + after.homeKeys.length ≤
      before.notices + before.homeKeys.length + announced
  dismissals_le :
    after.dismissals + after.staleKeys.length ≤
      before.dismissals + before.staleKeys.length + displaced
  placements_le :
    after.placements + after.bareAgents.length + before.erasures ≤
      before.placements + before.bareAgents.length + after.erasures + vacated

namespace Spends

theorem refl (list : MemberList) : Spends list list 0 0 0 where
  hosted_eq := rfl
  notices_le := Nat.le_refl _
  dismissals_le := Nat.le_refl _
  placements_le := Nat.le_refl _

theorem trans {first second third : MemberList} {announced displaced vacated : Nat}
    {announcedLater displacedLater vacatedLater : Nat}
    (left : Spends first second announced displaced vacated)
    (right : Spends second third announcedLater displacedLater vacatedLater) :
    Spends first third (announced + announcedLater) (displaced + displacedLater)
      (vacated + vacatedLater) where
  hosted_eq := right.hosted_eq.trans left.hosted_eq
  notices_le := by
    have := left.notices_le
    have := right.notices_le
    omega
  dismissals_le := by
    have := left.dismissals_le
    have := right.dismissals_le
    omega
  placements_le := by
    have := left.placements_le
    have := right.placements_le
    omega

/-- An edit of the membership map changes nothing about the hosting map. -/
private theorem of_membership {announced : Nat}
    (notices_le :
      (list.write membershipUri edits).2.notices +
          (list.write membershipUri edits).2.homeKeys.length ≤
        list.notices + list.homeKeys.length + announced) :
    Spends list (list.write membershipUri edits).2 announced 0 0 := by
  have sameLog : (list.write membershipUri edits).2.log hostingUri = list.log hostingUri :=
    log_write_of_ne (by decide)
  have sameEntries :
      (list.write membershipUri edits).2.store.entries hostingUri =
        list.store.entries hostingUri :=
    entries_write_of_ne (by decide)
  refine
    { hosted_eq := hosted_write
      notices_le
      dismissals_le := ?_
      placements_le := ?_ }
  · simp [dismissals, staleKeys, sameLog, sameEntries]
  · simp [placements, bareAgents, erasures, sameLog, sameEntries]

/-- An edit of the hosting map changes nothing about the membership map. -/
private theorem of_hosting
    (dismissals_le :
      (list.write hostingUri edits).2.dismissals +
          (list.write hostingUri edits).2.staleKeys.length ≤
        list.dismissals + list.staleKeys.length)
    (placements_le :
      (list.write hostingUri edits).2.placements +
          (list.write hostingUri edits).2.bareAgents.length + list.erasures ≤
        list.placements + list.bareAgents.length +
          (list.write hostingUri edits).2.erasures) :
    Spends list (list.write hostingUri edits).2 0 0 0 := by
  have sameLog :
      (list.write hostingUri edits).2.log membershipUri = list.log membershipUri :=
    log_write_of_ne (by decide)
  have sameEntries :
      (list.write hostingUri edits).2.store.entries membershipUri =
        list.store.entries membershipUri :=
    entries_write_of_ne (by decide)
  refine
    { hosted_eq := hosted_write
      notices_le := ?_
      dismissals_le
      placements_le }
  simp [notices, homeKeys, sameLog, sameEntries]

end Spends

/-! ### Deletes -/

/-- Deletes of entries take these away. -/
private theorem length_keys_erase {kept : String → String → Bool}
    (deletes : ∀ edit ∈ edits, edit.value = none)
    (found :
      ∀ edit ∈ edits, edit.key ∈ ((list.store.entries uri).filter kept).keys)
    (distinct : (edits.map Edit.key).Nodup) :
    (((list.write uri edits).2.store.entries uri).filter kept).keys.length + edits.length ≤
      ((list.store.entries uri).filter kept).keys.length := by
  have after_eq :
      ∀ key, ((list.write uri edits).2.store.entries uri).get? key =
        if ∃ edit ∈ edits, edit.key = key then none else (list.store.entries uri).get? key :=
    fun key => get?_entries_write fun edit member _ => deletes edit member
  have mem_after :
      ∀ key ∈ (((list.write uri edits).2.store.entries uri).filter kept).keys,
        (¬ ∃ edit ∈ edits, edit.key = key) ∧
          key ∈ ((list.store.entries uri).filter kept).keys := by
    intro key member
    rw [SortedMap.mem_keys_iff, SortedMap.contains_iff] at member ⊢
    obtain ⟨value, left⟩ := member
    rw [SortedMap.get?_filter, after_eq, Option.filter_eq_some_iff] at left
    obtain ⟨left, passes⟩ := left
    split at left
    · cases left
    · rename_i untouched
      refine ⟨untouched, value, ?_⟩
      rw [SortedMap.get?_filter, Option.filter_eq_some_iff]
      exact ⟨left, passes⟩
  have nodup :
      ((((list.write uri edits).2.store.entries uri).filter kept).keys ++
        edits.map Edit.key).Nodup := by
    refine List.nodup_append.mpr ⟨SortedMap.nodup_keys _, distinct, ?_⟩
    rintro key left _ removed rfl
    obtain ⟨edit, member, same⟩ := List.mem_map.mp removed
    exact (mem_after key left).1 ⟨edit, member, same⟩
  have subset :
      (((list.write uri edits).2.store.entries uri).filter kept).keys ++
          edits.map Edit.key ⊆
        ((list.store.entries uri).filter kept).keys := by
    intro key member
    rcases List.mem_append.mp member with left | removed
    · exact (mem_after key left).2
    · obtain ⟨edit, inside, rfl⟩ := List.mem_map.mp removed
      exact found edit inside
  have short := (nodup.subperm subset).length_le
  rwa [List.length_append, List.length_map] at short

private theorem placements_erase (deletes : ∀ edit ∈ edits, edit.value = none) :
    (list.write uri edits).2.placements = list.placements := by
  unfold placements
  by_cases here : hostingUri = uri
  · subst here
    obtain ⟨more, appended, _, stems⟩ := exists_log_write list hostingUri edits
    rw [appended, replica_write, List.countP_append, Nat.add_eq_left, List.countP_eq_zero]
    intro operation inside
    obtain ⟨edit, member, _, _, sameValue⟩ := (stems operation inside).exists_edit
    simp [sameValue, deletes edit member]
  · rw [log_write_of_ne here, replica_write]

private theorem nodup_hostingDeletes (list : MemberList) (endpoint : Endpoint) :
    ((list.hostingDeletes endpoint).map Edit.key).Nodup := by
  have sublist :
      ((list.hostingDeletes endpoint).map Edit.key).Sublist
        (list.store.entries hostingUri).keys := by
    unfold hostingDeletes SortedMap.keys
    induction (list.store.entries hostingUri).entries with
    | nil => exact List.Sublist.slnil
    | cons entry rest inductionHypothesis =>
        rw [List.filterMap_cons, List.map_cons]
        by_cases named : entry.2 = endpoint.key
        · simp only [named, if_true]
          exact inductionHypothesis.cons_cons entry.1
        · simp only [named, if_false]
          exact inductionHypothesis.cons entry.1
  exact sublist.nodup (SortedMap.nodup_keys _)

/-- Each hosted agent that misses its entry missed it before, or a delete was
appended. -/
private theorem length_bareAgents_append_le (sameOwn : after.own = list.own)
    (sameHosted : after.hosted = list.hosted)
    (appended : after.log hostingUri = list.log hostingUri ++ more) :
    after.bareAgents.length ≤ list.bareAgents.length + more.countP (·.value.isNone) := by
  have nodup : (after.bareAgents.map (hostingKey · list.own)).Nodup :=
    List.Nodup.map (fun _ _ same => hostingKey_left_injective same) (nodup_bareAgents after)
  have subset :
      after.bareAgents.map (hostingKey · list.own) ⊆
        list.bareAgents.map (hostingKey · list.own) ++
          (more.filter (·.value.isNone)).map (·.key) := by
    intro key member
    obtain ⟨agent, bare, rfl⟩ := List.mem_map.mp member
    obtain ⟨hosted, missing⟩ := mem_bareAgents_iff.mp bare
    rw [sameHosted] at hosted
    rw [sameOwn, entries_eq, appended] at missing
    rw [List.mem_append]
    rcases Document.get?_entriesOf_append_eq_none missing with before | deleted
    · exact Or.inl (List.mem_map.mpr ⟨agent, mem_bareAgents_iff.mpr ⟨hosted, before⟩, rfl⟩)
    · obtain ⟨delete, added, _, sameKey, absent⟩ := deleted
      refine Or.inr (List.mem_map.mpr ⟨delete, List.mem_filter.mpr ⟨added, ?_⟩, sameKey⟩)
      rw [absent]
      rfl
  have short := (nodup.subperm subset).length_le
  rwa [List.length_append, List.length_map, List.length_map, List.length_map,
    ← List.countP_eq_length_filter] at short

namespace Spends

/-- A member on the list's host is deleted. -/
private theorem eraseKey {endpoint : Endpoint} (home : endpoint.sameHost list.own = true) :
    Spends list (list.write membershipUri [.delete endpoint.key]).2 0 0 0 := by
  apply of_membership
  obtain ⟨more, appended, short, stems⟩ :=
    exists_log_write list membershipUri [.delete endpoint.key]
  have added :
      (list.write membershipUri [.delete endpoint.key]).2.notices ≤
        list.notices + more.length := by
    rw [notices, replica_write]
    exact countP_append_le appended
  cases found : (list.store.entries membershipUri).get? endpoint.key with
  | none =>
      have nothing : more = [] := by
        rw [List.eq_nil_iff_forall_not_mem]
        intro operation inside
        obtain ⟨edit, member, changes, _⟩ := (stems operation inside).exists_edit
        cases List.mem_singleton.mp member
        have unchanged :
            (Edit.delete endpoint.key).changes (list.store.entries membershipUri) = false :=
          Document.changes_eq_false_iff.mpr found
        exact absurd (unchanged.symm.trans changes) (by decide)
      have sameEntries :
          (list.write membershipUri [.delete endpoint.key]).2.store.entries membershipUri =
            list.store.entries membershipUri := by
        rw [entries_eq, entries_eq, appended, nothing, List.append_nil]
      rw [nothing] at added
      simp only [homeKeys, own_write, sameEntries]
      simpa using added
  | some value =>
      have home :
          ∀ edit ∈ [Edit.delete endpoint.key],
            edit.key ∈
              ((list.store.entries membershipUri).filter fun key _ =>
                list.own.keyOfHost key).keys := by
        intro edit member
        cases List.mem_singleton.mp member
        exact
          mem_homeKeys_iff.mpr
            ⟨Endpoint.keyOfHost_iff.mpr ⟨endpoint, home, rfl⟩, value, found⟩
      have fewer := length_keys_erase (by simp [Edit.value]) home (by simp)
      simp only [homeKeys, own_write]
      rw [List.length_singleton] at fewer short
      omega

/-- The hosting entries of another endpoint on the list's host are deleted. -/
private theorem dismiss {endpoint : Endpoint} (home : endpoint.sameHost list.own = true)
    (other : endpoint ≠ list.own) :
    Spends list (list.write hostingUri (list.hostingDeletes endpoint)).2 0 0 0 := by
  obtain ⟨more, appended, short, _⟩ :=
    exists_log_write list hostingUri (list.hostingDeletes endpoint)
  have fewer :
      (list.write hostingUri (list.hostingDeletes endpoint)).2.staleKeys.length +
          (list.hostingDeletes endpoint).length ≤
        list.staleKeys.length := by
    unfold staleKeys
    rw [own_write]
    apply length_keys_erase value_of_mem_hostingDeletes
    · intro edit member
      obtain ⟨key, found, rfl⟩ := mem_hostingDeletes_iff.mp member
      exact mem_staleKeys_iff.mpr ⟨endpoint, home, other, found⟩
    · exact nodup_hostingDeletes list endpoint
  have unplaced :
      (list.write hostingUri (list.hostingDeletes endpoint)).2.placements =
        list.placements :=
    placements_erase value_of_mem_hostingDeletes
  have dismissed :
      (list.write hostingUri (list.hostingDeletes endpoint)).2.dismissals ≤
        list.dismissals + more.length := by
    rw [dismissals, replica_write]
    exact countP_append_le appended
  have erased := erasures_append appended
  have bared := length_bareAgents_append_le own_write hosted_write appended
  apply of_hosting
  · omega
  · omega

theorem withdraw {endpoint : Endpoint} (older : list.own.supersedes endpoint = true) :
    Spends list (list.withdraw endpoint).2 0 0 0 := by
  have home := Endpoint.sameHost_symm (Endpoint.supersedes_iff.mp older).1
  refine (eraseKey home).trans (dismiss ?_ ?_)
  · rwa [own_write]
  · rw [own_write]
    exact (Endpoint.ne_of_supersedes older).symm

theorem withdrawOlder :
    ∀ {older : List Endpoint} {list : MemberList},
      (∀ endpoint ∈ older, list.own.supersedes endpoint = true) →
        Spends list (list.withdrawOlder older) 0 0 0
  | [], list, _ => refl list
  | endpoint :: rest, list, superseded => by
      have first := withdraw (superseded endpoint List.mem_cons_self)
      refine first.trans (withdrawOlder ?_)
      intro later member
      rw [own_withdraw]
      exact superseded later (List.mem_cons_of_mem _ member)

end Spends

/-! ### Restoring hosting entries -/

private theorem length_missingPuts (list : MemberList) :
    list.missingPuts.length = list.bareAgents.length := by
  unfold missingPuts bareAgents
  rw [List.length_map, List.filter_map, List.length_map]
  rfl

private theorem get?_entries_write_missingPuts (list : MemberList) (key : String) :
    ((list.write hostingUri list.missingPuts).2.store.entries hostingUri).get? key =
      if ∃ edit ∈ list.missingPuts, edit.key = key then some list.own.key
      else (list.store.entries hostingUri).get? key := by
  apply get?_entries_write
  intro edit member _
  obtain ⟨_, _, _, rfl⟩ := mem_missingPuts_iff.mp member
  rfl

/-- No agent is left without its entry. -/
private theorem bareAgents_write_missingPuts (list : MemberList) :
    (list.write hostingUri list.missingPuts).2.bareAgents = [] := by
  rw [List.eq_nil_iff_forall_not_mem]
  intro agent bare
  obtain ⟨hosted, missing⟩ := mem_bareAgents_iff.mp bare
  rw [hosted_write] at hosted
  rw [own_write, get?_entries_write_missingPuts] at missing
  split at missing
  · cases missing
  · rename_i untouched
    exact untouched ⟨_, mem_missingPuts_iff.mpr ⟨agent, hosted, missing, rfl⟩, rfl⟩

/-- What is put back names the own endpoint. -/
private theorem staleKeys_write_missingPuts_subset (list : MemberList) :
    (list.write hostingUri list.missingPuts).2.staleKeys ⊆ list.staleKeys := by
  intro key member
  obtain ⟨endpoint, home, other, found⟩ := mem_staleKeys_iff.mp member
  rw [own_write] at home other
  rw [get?_entries_write_missingPuts] at found
  split at found
  · exact absurd (Endpoint.key_injective (Option.some.inj found)).symm other
  · exact mem_staleKeys_iff.mpr ⟨endpoint, home, other, found⟩

theorem Spends.restoreHosting (list : MemberList) :
    Spends list list.restoreHosting 0 0 0 := by
  rw [restoreHosting_eq]
  obtain ⟨more, appended, short, stems⟩ :=
    exists_log_write list hostingUri list.missingPuts
  have placed : ∀ operation ∈ more, operation.value = some list.own.key := by
    intro operation inside
    obtain ⟨edit, member, _, _, sameValue⟩ := (stems operation inside).exists_edit
    obtain ⟨_, _, _, rfl⟩ := mem_missingPuts_iff.mp member
    rw [sameValue]
    rfl
  have undismissed :
      (list.write hostingUri list.missingPuts).2.dismissals = list.dismissals := by
    unfold dismissals
    rw [appended, replica_write, List.countP_append, Nat.add_eq_left, List.countP_eq_zero]
    intro operation inside
    simp [placed operation inside]
  have unerased : (list.write hostingUri list.missingPuts).2.erasures = list.erasures := by
    rw [erasures_append appended, Nat.add_eq_left, List.countP_eq_zero]
    intro operation inside
    simp [placed operation inside]
  have placements_le :
      (list.write hostingUri list.missingPuts).2.placements ≤
        list.placements + more.length := by
    rw [placements, replica_write]
    exact countP_append_le appended
  have stale :=
    ((nodup_staleKeys _).subperm (staleKeys_write_missingPuts_subset list)).length_le
  have sameLength := length_missingPuts list
  apply of_hosting
  · omega
  · rw [bareAgents_write_missingPuts, List.length_nil]
    omega

/-! ## Sovereign lists -/

/-- Nobody else puts in the name of the list's host. -/
structure Sovereign (list : MemberList) : Prop where
  announced : ∀ operation ∈ list.log membershipUri, ∀ endpoint : Endpoint,
    endpoint.sameHost list.own = true → operation.value.isSome = true →
      operation.key = endpoint.key → operation.replica = list.store.replica
  placed : ∀ operation ∈ list.log hostingUri, ∀ endpoint : Endpoint,
    endpoint.sameHost list.own = true → operation.value = some endpoint.key →
      operation.replica = list.store.replica

namespace Sovereign

theorem erase (sovereign : list.Sovereign) (deletes : ∀ edit ∈ edits, edit.value = none) :
    (list.write uri edits).2.Sovereign where
  announced operation held endpoint := by
    rw [own_write, replica_write]
    intro home put
    exact sovereign.announced operation (mem_log_of_erase deletes held put) endpoint home put
  placed operation held endpoint := by
    rw [own_write, replica_write]
    intro home value
    have before := mem_log_of_erase deletes held (by rw [value]; rfl)
    exact sovereign.placed operation before endpoint home value

theorem withdraw (sovereign : list.Sovereign) (endpoint : Endpoint) :
    (list.withdraw endpoint).2.Sovereign := by
  have erased : (list.write membershipUri [.delete endpoint.key]).2.Sovereign :=
    sovereign.erase (by simp [Edit.value])
  exact erased.erase value_of_mem_hostingDeletes

theorem withdrawOlder :
    ∀ {older : List Endpoint} {list : MemberList}, list.Sovereign →
      (list.withdrawOlder older).Sovereign
  | [], _, sovereign => sovereign
  | endpoint :: _, _, sovereign => (sovereign.withdraw endpoint).withdrawOlder

end Sovereign

/-! ## Operations of others -/

theorem exists_log_absorb {store : Store} (absorbs : list.Absorbs store) (uri : String) :
    ∃ more, ({ list with store } : MemberList).log uri = list.log uri ++ more ∧
      ∀ operation ∈ more, operation.replica ≠ list.store.replica :=
  absorbs.log_eq uri

theorem countP_absorb {store : Store} (absorbs : list.Absorbs store)
    {counted : Operation → Bool}
    (own : ∀ operation, counted operation = true → operation.replica = list.store.replica)
    (uri : String) :
    (({ list with store } : MemberList).log uri).countP counted =
      (list.log uri).countP counted := by
  obtain ⟨more, appended, foreign⟩ := exists_log_absorb absorbs uri
  rw [appended, List.countP_append, Nat.add_eq_left, List.countP_eq_zero]
  exact fun operation inside passes => foreign operation inside (own operation passes)

private theorem notices_absorb {store : Store} (absorbs : list.Absorbs store) :
    ({ list with store } : MemberList).notices = list.notices := by
  rw [notices, countP_absorb absorbs (by simp [absorbs.replica_eq]), notices,
    absorbs.replica_eq]

private theorem dismissals_absorb {store : Store} (absorbs : list.Absorbs store) :
    ({ list with store } : MemberList).dismissals = list.dismissals := by
  rw [dismissals, countP_absorb absorbs (by simp +contextual [absorbs.replica_eq]),
    dismissals, absorbs.replica_eq]

theorem placements_absorb {store : Store} (absorbs : list.Absorbs store) :
    ({ list with store } : MemberList).placements = list.placements := by
  rw [placements, countP_absorb absorbs (by simp +contextual [absorbs.replica_eq]),
    placements, absorbs.replica_eq]

/-- What a list has written does not change by an import. -/
theorem written_absorb {store : Store} (absorbs : list.Absorbs store) :
    ({ list with store } : MemberList).written = list.written := by
  rw [written, notices_absorb absorbs, dismissals_absorb absorbs, placements_absorb absorbs,
    written]

private theorem homeKeys_absorb_subset {store : Store} (absorbs : list.Absorbs store)
    (sovereign : ({ list with store } : MemberList).Sovereign) :
    ({ list with store } : MemberList).homeKeys ⊆ list.homeKeys := by
  obtain ⟨more, appended, foreign⟩ := exists_log_absorb absorbs membershipUri
  intro key member
  obtain ⟨ofHost, value, found⟩ := mem_homeKeys_iff.mp member
  rw [entries_eq, appended] at found
  rcases Document.get?_entriesOf_append_eq_some found with
    before | ⟨put, added, _, named, written⟩
  · exact mem_homeKeys_iff.mpr ⟨ofHost, value, before⟩
  · obtain ⟨endpoint, sameHost, rfl⟩ := Endpoint.keyOfHost_iff.mp ofHost
    have held : put ∈ ({ list with store } : MemberList).log membershipUri := by
      rw [appended]
      exact List.mem_append_right _ added
    have own := sovereign.announced put held endpoint sameHost (by rw [written]; rfl) named
    exact absurd (own.trans absorbs.replica_eq) (foreign put added)

private theorem staleKeys_absorb_subset {store : Store} (absorbs : list.Absorbs store)
    (sovereign : ({ list with store } : MemberList).Sovereign) :
    ({ list with store } : MemberList).staleKeys ⊆ list.staleKeys := by
  obtain ⟨more, appended, foreign⟩ := exists_log_absorb absorbs hostingUri
  intro key member
  obtain ⟨endpoint, sameHost, other, found⟩ := mem_staleKeys_iff.mp member
  rw [entries_eq, appended] at found
  rcases Document.get?_entriesOf_append_eq_some found with before | ⟨put, added, _, _, value⟩
  · exact mem_staleKeys_iff.mpr ⟨endpoint, sameHost, other, before⟩
  · have held : put ∈ ({ list with store } : MemberList).log hostingUri := by
      rw [appended]
      exact List.mem_append_right _ added
    have own := sovereign.placed put held endpoint sameHost value
    exact absurd (own.trans absorbs.replica_eq) (foreign put added)

/-- Operations of others only take entries of the list's host away. -/
theorem Spends.absorb {store : Store} (absorbs : list.Absorbs store)
    (sovereign : ({ list with store } : MemberList).Sovereign) :
    Spends list { list with store } 0 0 0 := by
  obtain ⟨hosting, appended, _⟩ := exists_log_absorb absorbs hostingUri
  have unnoticed := notices_absorb absorbs
  have undismissed := dismissals_absorb absorbs
  have unplaced := placements_absorb absorbs
  have erased := erasures_append appended
  have fewerHome :=
    ((nodup_homeKeys _).subperm (homeKeys_absorb_subset absorbs sovereign)).length_le
  have fewerStale :=
    ((nodup_staleKeys _).subperm (staleKeys_absorb_subset absorbs sovereign)).length_le
  have bared :
      ({ list with store } : MemberList).bareAgents.length ≤
        list.bareAgents.length + hosting.countP (·.value.isNone) :=
    length_bareAgents_append_le rfl rfl appended
  exact
    { hosted_eq := rfl
      notices_le := by omega
      dismissals_le := by omega
      placements_le := by omega }

/-! ## Returning -/

theorem own_announce_named (list : MemberList) (own : Endpoint) :
    (MemberList.announce { list with own }).own = own := by
  simp [MemberList.announce]

private theorem log_announce_hosting (list : MemberList) (own : Endpoint) :
    (MemberList.announce { list with own }).log hostingUri = list.log hostingUri :=
  log_write_of_ne (by decide)

private theorem replica_announce_named (list : MemberList) (own : Endpoint) :
    (MemberList.announce { list with own }).store.replica = list.store.replica :=
  replica_write

private theorem notices_announce_le (list : MemberList) (own : Endpoint) :
    (MemberList.announce { list with own }).notices ≤ list.notices + 1 := by
  obtain ⟨more, appended, short, _⟩ :=
    exists_log_write { list with own } membershipUri [.put own.key list.tags.toText]
  have appendedHere :
      (MemberList.announce { list with own }).log membershipUri =
        list.log membershipUri ++ more :=
    appended
  rw [List.length_singleton] at short
  rw [notices, replica_announce_named]
  exact Nat.le_trans (countP_append_le appendedHere) (Nat.add_le_add_left short _)

/-- One more endpoint of the host is a member. -/
private theorem length_homeKeys_announce_le (home : own.sameHost list.own = true) :
    (MemberList.announce { list with own }).homeKeys.length ≤ list.homeKeys.length + 1 := by
  have named :
      (MemberList.announce { list with own }).homeKeys ⊆ own.key :: list.homeKeys := by
    intro key member
    obtain ⟨ofHost, value, found⟩ := mem_homeKeys_iff.mp member
    rw [own_announce_named, Endpoint.keyOfHost_of_sameHost home] at ofHost
    simp only [MemberList.announce] at found
    rw [get?_entries_write_singleton] at found
    split at found
    · rename_i here
      rw [here]
      exact List.mem_cons_self
    · exact List.mem_cons_of_mem _ (mem_homeKeys_iff.mpr ⟨ofHost, value, found⟩)
  exact ((nodup_homeKeys _).subperm named).length_le

/-- The entries of other endpoints of the host are ones that the list has put. -/
private theorem length_staleKeys_announce_le (sovereign : list.Sovereign)
    (home : own.sameHost list.own = true) :
    (MemberList.announce { list with own }).staleKeys.length ≤ list.placements := by
  have displaced :
      (MemberList.announce { list with own }).staleKeys ⊆
        ((list.log hostingUri).filter fun operation =>
          operation.replica == list.store.replica && operation.value.isSome).map (·.key) := by
    intro key member
    obtain ⟨endpoint, sameHost, _, found⟩ := mem_staleKeys_iff.mp member
    rw [own_announce_named] at sameHost
    rw [entries_eq, log_announce_hosting] at found
    obtain ⟨put, held, _, sameKey, value⟩ := Document.exists_put_of_get?_entriesOf found
    have written :=
      sovereign.placed put held endpoint (Endpoint.sameHost_trans sameHost home) value
    refine List.mem_map.mpr ⟨put, List.mem_filter.mpr ⟨held, ?_⟩, sameKey⟩
    simp [written, value]
  have short := ((nodup_staleKeys _).subperm displaced).length_le
  rwa [List.length_map, ← List.countP_eq_length_filter] at short

/-- A list that announces itself under another endpoint of its host has to
delete what it put under the ones before, and to put it again. -/
theorem Spends.announce (sovereign : list.Sovereign) (home : own.sameHost list.own = true) :
    Spends list (MemberList.announce { list with own }) 2 list.placements
      list.hosted.size := by
  have sameLog := log_announce_hosting list own
  have sameReplica := replica_announce_named list own
  have sameHosted : (MemberList.announce { list with own }).hosted = list.hosted := by
    simp [MemberList.announce]
  have noticed := notices_announce_le list own
  have named := length_homeKeys_announce_le home
  have displaced := length_staleKeys_announce_le sovereign home
  have vacated := length_bareAgents_le (MemberList.announce { list with own })
  rw [sameHosted] at vacated
  have undismissed :
      (MemberList.announce { list with own }).dismissals = list.dismissals := by
    rw [dismissals, sameLog, sameReplica, dismissals]
  have unplaced :
      (MemberList.announce { list with own }).placements = list.placements := by
    rw [placements, sameLog, sameReplica, placements]
  have unerased : (MemberList.announce { list with own }).erasures = list.erasures := by
    rw [erasures, sameLog, erasures]
  exact
    { hosted_eq := sameHosted
      notices_le := by omega
      dismissals_le := by omega
      placements_le := by omega }

private theorem placements_withdrawOlder :
    ∀ {older : List Endpoint} {list : MemberList},
      (list.withdrawOlder older).placements = list.placements
  | [], _ => rfl
  | endpoint :: rest, list => by
      have member :
          (list.write membershipUri [.delete endpoint.key]).2.placements = list.placements :=
        placements_erase (by simp [Edit.value])
      have withdrawn : (list.withdraw endpoint).2.placements = list.placements :=
        (placements_erase value_of_mem_hostingDeletes).trans member
      rw [MemberList.withdrawOlder, placements_withdrawOlder, withdrawn]

theorem Spends.reincarnate {offered : UInt64} (sovereign : list.Sovereign)
    (returned : list.reincarnate offered = .ok after) :
    Spends list after 2 list.placements list.hosted.size := by
  obtain ⟨own, later, rfl⟩ := reincarnate_eq_ok returned
  have home := (Endpoint.supersedes_iff.mp later).1
  refine (announce sovereign home).trans (dismiss ?_ ?_)
  · rw [own_announce_named]
    exact Endpoint.sameHost_symm home
  · rw [own_announce_named]
    exact (Endpoint.ne_of_supersedes later).symm

/-- What a repair writes was found or missed before, unless the list returns
because it is no longer a member. -/
theorem Spends.repair {offered : UInt64} {changed : Bool} {made : Outcome}
    (sovereign : list.Sovereign)
    (repaired : list.repair offered changed = .ok (made, after)) :
    after.own = list.own ∧ Spends list after 0 0 0 ∨
      after.own.supersedes list.own = true ∧ list.members.contains list.own = false ∧
        Spends list after 2 list.placements list.hosted.size := by
  have spentCleaned : Spends list list.cleaned 0 0 0 :=
    withdrawOlder fun endpoint member => (List.mem_filter.mp member).2
  cases repairs_of_eq_ok repaired with
  | unchanged => exact Or.inl ⟨rfl, refl list⟩
  | restored _ =>
      refine Or.inl ⟨?_, spentCleaned.trans (restoreHosting _)⟩
      rw [own_restoreHosting, own_cleaned]
  | @returned next absent returned =>
      have sovereignCleaned : list.cleaned.Sovereign := sovereign.withdrawOlder
      have samePlacements : list.cleaned.placements = list.placements :=
        placements_withdrawOlder
      have spent := reincarnate sovereignCleaned returned
      have total := (spentCleaned.trans spent).trans (restoreHosting next)
      rw [samePlacements, hosted_cleaned] at total
      have later := supersedes_of_reincarnate returned
      rw [own_cleaned] at later
      refine Or.inr ⟨?_, absent, by simpa using total⟩
      rwa [own_restoreHosting]

/-! ## Deltas -/

/-- A list that edits puts at most one delta for each operation that it writes
into its outbox. -/
private theorem outbox_write_le (ordered : Ordered list) (known : isKnownUri uri = true) :
    (list.write uri edits).2.outbox.length + list.written ≤
      list.outbox.length + (list.write uri edits).2.written := by
  obtain ⟨more, appended, stems, outbox⟩ :=
    log_write (ordered.causal uri) (ordered.ascending uri) edits
  have allOwn :
      (more.countP fun operation => operation.replica == list.store.replica) = more.length := by
    rw [List.countP_eq_length]
    intro operation inside
    simp [(stems operation inside).1.replica_eq]
  have grown : (list.write uri edits).2.written = list.written + more.length := by
    simp only [written, Nat.add_assoc, dismissals_add_placements, notices, replica_write]
    have known : uri = membershipUri ∨ uri = hostingUri := by
      simpa [isKnownUri] using known
    rcases known with rfl | rfl
    · rw [appended, log_write_of_ne (by decide), List.countP_append, allOwn]
      omega
    · rw [appended, log_write_of_ne (by decide), List.countP_append, allOwn]
  rw [outbox, grown, List.length_append]
  cases more with
  | nil => simp
  | cons first rest =>
      simp
      omega

/-- Whatever a list does of its own accord, it puts at most one delta for each
operation into its outbox. -/
theorem Evolves.outbox_le {start : MemberList} {names known : List Endpoint}
    (evolved : Evolves start names after known) (ordered : Ordered start) :
    after.outbox.length + start.written ≤ start.outbox.length + after.written := by
  induction evolved with
  | refl => exact Nat.le_refl _
  | @erase before _ uri edits evolvedBefore knownUri _ inductionHypothesis =>
      have orderedBefore := (evolvedBefore.extends_ordered ordered).2
      have last :
          (before.write uri edits).2.outbox.length + before.written ≤
            before.outbox.length + (before.write uri edits).2.written :=
        outbox_write_le orderedBefore knownUri
      omega
  | @place before _ edits evolvedBefore _ inductionHypothesis =>
      have orderedBefore := (evolvedBefore.extends_ordered ordered).2
      have last :
          (before.write hostingUri edits).2.outbox.length + before.written ≤
            before.outbox.length + (before.write hostingUri edits).2.written :=
        outbox_write_le orderedBefore (by decide)
      omega
  | @rejoin before _ own evolvedBefore _ inductionHypothesis =>
      have orderedBefore := (evolvedBefore.extends_ordered ordered).2
      have orderedNamed : Ordered { before with own } :=
        orderedBefore.of_logs rfl fun _ => rfl
      have last :
          (MemberList.announce { before with own }).outbox.length + before.written ≤
            before.outbox.length + (MemberList.announce { before with own }).written :=
        outbox_write_le orderedNamed (by decide)
      omega
  | employ _ _ inductionHypothesis => exact inductionHypothesis
  | leave _ inductionHypothesis => exact inductionHypothesis

end Roster.MemberList
