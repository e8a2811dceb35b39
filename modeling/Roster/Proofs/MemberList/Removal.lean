import Roster.Proofs.MemberList.Presence

/-!
# What a removal takes away

A list is legible if every key of its membership map is that of an endpoint and
is read back as it.  To remove a member from such a list takes away this member
and what it hosts, at this incarnation, and nothing else.
-/

namespace Roster

namespace Landscape

/-! ## Endpoints that are gone -/

/-- No agent is listed without an endpoint. -/
def Inhabited (landscape : Landscape) : Prop :=
  ∀ agent hosts, landscape.get? agent = some hosts → ∃ endpoint, hosts.contains endpoint = true

/-- The landscape without some endpoints, and without agents that are left with
none. -/
def without (landscape : Landscape) (gone : Endpoint → Bool) : Landscape :=
  landscape.filterMap fun _ hosts =>
    let left := hosts.filter fun endpoint _ => !gone endpoint
    if left.isEmpty then none else some left

variable {landscape left right : Landscape} {agent : String} {endpoint : Endpoint}
  {gone : Endpoint → Bool}

private theorem not_contains_of_isEmpty {hosts : SortedSet Endpoint} (empty : hosts.isEmpty = true)
    (endpoint : Endpoint) : hosts.contains endpoint = false := by
  have none : hosts.entries = [] := List.isEmpty_iff.mp empty
  rw [SortedMap.contains, SortedMap.get?, none]
  rfl

private theorem exists_contains_of_not_isEmpty {hosts : SortedSet Endpoint}
    (some : hosts.isEmpty = false) : ∃ endpoint, hosts.contains endpoint = true := by
  obtain ⟨⟨endpoint, value⟩, entry⟩ := List.exists_mem_of_ne_nil hosts.entries (by
    rintro none
    rw [SortedMap.isEmpty, none] at some
    cases some)
  exact ⟨endpoint, SortedMap.contains_iff.mpr ⟨value, SortedMap.get?_eq_some_iff.mpr entry⟩⟩

private theorem contains_filter_hosts (hosts : SortedSet Endpoint) :
    (hosts.filter fun endpoint _ => !gone endpoint).contains endpoint = true ↔
      hosts.contains endpoint = true ∧ gone endpoint = false := by
  rw [SortedMap.contains, SortedMap.get?_filter, SortedMap.contains]
  cases hosts.get? endpoint <;> simp

private theorem hosts_iff :
    landscape.Hosts agent endpoint ↔
      ∃ hosts, landscape.get? agent = some hosts ∧ hosts.contains endpoint = true := by
  unfold Hosts
  cases landscape.get? agent <;> simp

theorem hosts_without_iff :
    (landscape.without gone).Hosts agent endpoint ↔
      landscape.Hosts agent endpoint ∧ gone endpoint = false := by
  rw [hosts_iff, hosts_iff, without, SortedMap.get?_filterMap]
  cases landscape.get? agent with
  | none => simp
  | some hosts =>
      simp only [Option.bind_some, Option.some.injEq, exists_eq_left']
      rw [← contains_filter_hosts]
      split
      · rename_i empty
        simp [not_contains_of_isEmpty empty]
      · simp

theorem inhabited_without (landscape : Landscape) (gone : Endpoint → Bool) :
    (landscape.without gone).Inhabited := by
  intro agent hosts found
  rw [without, SortedMap.get?_filterMap, Option.bind_eq_some_iff] at found
  obtain ⟨earlier, _, kept⟩ := found
  simp only at kept
  split at kept
  · cases kept
  · rename_i some
    cases kept
    exact exists_contains_of_not_isEmpty (Bool.not_eq_true _ ▸ some)

/-- Landscapes in which the same agents are at the same endpoints are equal. -/
theorem ext_hosts (leftInhabited : left.Inhabited) (rightInhabited : right.Inhabited)
    (same : ∀ agent endpoint, left.Hosts agent endpoint ↔ right.Hosts agent endpoint) :
    left = right := by
  apply SortedMap.ext_get?
  intro agent
  have sameHosts := same agent
  simp only [hosts_iff] at sameHosts
  cases leftFound : left.get? agent with
  | none =>
      cases rightFound : right.get? agent with
      | none => rfl
      | some hosts =>
          obtain ⟨endpoint, hosted⟩ := rightInhabited agent hosts rightFound
          obtain ⟨_, found, _⟩ := (sameHosts endpoint).mpr ⟨hosts, rightFound, hosted⟩
          rw [leftFound] at found
          cases found
  | some hosts =>
      cases rightFound : right.get? agent with
      | none =>
          obtain ⟨endpoint, hosted⟩ := leftInhabited agent hosts leftFound
          obtain ⟨_, found, _⟩ := (sameHosts endpoint).mp ⟨hosts, leftFound, hosted⟩
          rw [rightFound] at found
          cases found
      | some others =>
          have sameMembers : hosts = others := by
            apply SortedSet.ext_contains
            intro endpoint
            simpa [leftFound, rightFound] using sameHosts endpoint
          rw [sameMembers]

end Landscape

namespace MemberList

variable {list : MemberList} {endpoint : Endpoint}

/-! ## Deleting a key -/

/-- To delete a key changes something exactly if the key had an entry. -/
private theorem fst_write_delete (list : MemberList) (uri key : String) :
    (list.write uri [.delete key]).1 = (list.store.entries uri).contains key := by
  have made :=
    Document.isSome_since?_write_delete (list.store.document uri) list.store.replica uri key
  rw [Store.entries, ← made]
  simp only [write, Store.write, List.isEmpty_cons, Bool.false_eq_true, if_false,
    Option.isSome_map]

private theorem fst_withdraw (list : MemberList) (endpoint : Endpoint) :
    (list.withdraw endpoint).1 = list.contains endpoint :=
  list.fst_write_delete membershipUri endpoint.key

theorem remove_own (list : MemberList) (running : list.stopped = false) :
    list.remove list.own = (.ok false, list) := by
  rw [remove, whileRunning, if_neg (by simp [running]), if_pos rfl]

/-- To remove another endpoint than the own one is to withdraw it. -/
theorem remove_of_ne (running : list.stopped = false) (other : endpoint ≠ list.own) :
    list.remove endpoint = (.ok (list.contains endpoint), (list.withdraw endpoint).2) := by
  rw [remove, whileRunning, if_neg (by simp [running]), if_neg other, ← fst_withdraw]

/-! ## Landscapes of lists -/

private theorem inhabited_place {members : Members} {landscape : Landscape}
    (inhabited : landscape.Inhabited) (entry : String × String) :
    (place members landscape entry).Inhabited := by
  unfold place
  split
  · rename_i placed _ _ _
    split
    · intro agent hosts found
      rw [SortedMap.get?_insert] at found
      split at found
      · cases found
        exact ⟨placed, (SortedSet.contains_add _ _ _).mpr (Or.inl rfl)⟩
      · exact inhabited agent hosts found
    · exact inhabited
  · exact inhabited

theorem inhabited_landscape (list : MemberList) : list.landscape.Inhabited := by
  have start : Landscape.Inhabited SortedMap.empty := by
    intro agent hosts found
    rw [SortedMap.get?_empty] at found
    cases found
  rw [landscape_eq]
  exact List.foldlRecOn _ _ start fun _ inhabited entry _ => inhabited_place inhabited entry

/-! ## What is left -/

/-- Every key of the membership map is that of an endpoint, as which it is read
back. -/
def Legible (list : MemberList) : Prop :=
  ∀ key, (list.store.entries membershipUri).contains key = true →
    ∃ name : Endpoint, name.ReadsBack ∧ key = name.key

namespace Legible

/-- An endpoint is a member exactly if its key is there. -/
theorem get?_members (legible : list.Legible) (endpoint : Endpoint) :
    list.members.get? endpoint =
      ((list.store.entries membershipUri).get? endpoint.key).map Tags.ofText := by
  cases found : (list.store.entries membershipUri).get? endpoint.key with
  | some value =>
      obtain ⟨name, readsBack, named⟩ :=
        legible endpoint.key (SortedMap.contains_iff.mpr ⟨value, found⟩)
      obtain rfl := Endpoint.key_injective named
      refine MemberList.get?_members found readsBack fun other contained read => ?_
      obtain ⟨another, anotherReads, rfl⟩ := legible other contained
      have same : some another = some endpoint := anotherReads.symm.trans read
      rw [Option.some.inj same]
  | none =>
      rw [Option.map_none, ← SortedMap.contains_eq_false_iff, ← Bool.not_eq_true]
      intro member
      obtain ⟨key, value, present, read⟩ := exists_entry_of_contains_members member
      obtain ⟨name, readsBack, rfl⟩ :=
        legible key (SortedMap.contains_iff.mpr ⟨value, present⟩)
      have same : some name = some endpoint := readsBack.symm.trans read
      rw [Option.some.inj same, found] at present
      cases present

theorem contains_members (legible : list.Legible) (endpoint : Endpoint) :
    list.members.contains endpoint = list.contains endpoint := by
  rw [SortedMap.contains, legible.get?_members, Option.isSome_map]
  rfl

theorem withdraw (legible : list.Legible) (endpoint : Endpoint) :
    (list.withdraw endpoint).2.Legible := by
  intro key contained
  obtain ⟨value, found⟩ := SortedMap.contains_iff.mp contained
  rw [get?_membership_withdraw] at found
  split at found
  · cases found
  · exact legible key (SortedMap.contains_iff.mpr ⟨value, found⟩)

/-- The members without the endpoint; the others keep their tags. -/
theorem members_withdraw (legible : list.Legible) (endpoint : Endpoint) :
    (list.withdraw endpoint).2.members = list.members.filter fun member _ => member ≠ endpoint := by
  apply SortedMap.ext_get?
  intro member
  rw [(legible.withdraw endpoint).get?_members, SortedMap.get?_filter, legible.get?_members,
    get?_membership_withdraw]
  by_cases here : member = endpoint
  · rw [if_pos (congrArg Endpoint.key here)]
    simp [here]
  · rw [if_neg fun same => here (Endpoint.key_injective same)]
    cases (list.store.entries membershipUri).get? member.key <;> simp [here, Option.filter_some]

/-- The agents are where they were, but none is at the endpoint. -/
theorem hosts_withdraw_iff (legible : list.Legible) (readsBack : endpoint.ReadsBack)
    {agent : String} {place : Endpoint} :
    (list.withdraw endpoint).2.landscape.Hosts agent place ↔
      list.landscape.Hosts agent place ∧ place ≠ endpoint := by
  simp only [hosts_landscape_iff, legible.members_withdraw, get?_hosting_withdraw_eq,
    Option.filter_eq_some_iff]
  constructor
  · rintro ⟨member, value, ⟨found, _⟩, read⟩
    obtain ⟨tags, kept⟩ := SortedMap.contains_iff.mp member
    rw [SortedMap.get?_filter, Option.filter_eq_some_iff] at kept
    exact ⟨⟨SortedMap.contains_iff.mpr ⟨tags, kept.1⟩, value, found, read⟩, by simpa using kept.2⟩
  · rintro ⟨⟨member, value, found, read⟩, other⟩
    obtain ⟨tags, present⟩ := SortedMap.contains_iff.mp member
    refine ⟨SortedMap.contains_iff.mpr ⟨tags, ?_⟩, value, ⟨found, ?_⟩, read⟩
    · rw [SortedMap.get?_filter, present]
      simp [other]
    · -- An entry that named the endpoint would be read back as it.
      simp only [decide_eq_true_eq]
      rintro rfl
      exact other (Option.some.inj (read.symm.trans readsBack))

end Legible

end MemberList

end Roster
