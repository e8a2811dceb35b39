import Roster.MemberList
import Roster.Proofs.Endpoint
import Roster.Proofs.SortedMap
import Roster.Proofs.Tags

/-!
# What a member list reports

The members and the landscape depend on the entries of the two maps alone.  An
endpoint is a member if some key is read as it.  An agent is at an endpoint in
the landscape if the endpoint is a member and a hosting entry names both.
-/

namespace Roster

namespace Landscape

/-- An agent is at an endpoint. -/
def Hosts (landscape : Landscape) (agent : String) (endpoint : Endpoint) : Prop :=
  ((landscape.get? agent).getD SortedMap.empty).contains endpoint = true

instance (landscape : Landscape) (agent : String) (endpoint : Endpoint) :
    Decidable (landscape.Hosts agent endpoint) :=
  inferInstanceAs (Decidable (_ = true))

private theorem not_hosts_empty (agent : String) (endpoint : Endpoint) :
    ¬ Hosts SortedMap.empty agent endpoint := by
  simp [Hosts, SortedMap.contains]

end Landscape

namespace MemberList

variable {list : MemberList} {agent : String} {endpoint : Endpoint}

/-! ## Members -/

theorem members_congr {left right : MemberList}
    (same : left.store.entries membershipUri = right.store.entries membershipUri) :
    left.members = right.members := by
  simp only [members, same]

theorem exists_entry_of_contains_members
    (member : list.members.contains endpoint = true) :
    ∃ key value, (list.store.entries membershipUri).get? key = some value ∧
      Endpoint.ofKey? key = some endpoint := by
  obtain ⟨tags, found⟩ := SortedMap.contains_iff.mp member
  obtain ⟨⟨key, value⟩, entry, read⟩ :=
    List.mem_filterMap.mp (SortedMap.mem_of_get?_ofList found)
  obtain ⟨other, keyRead, same⟩ := Option.map_eq_some_iff.mp read
  cases same
  exact ⟨key, value, SortedMap.get?_eq_some_iff.mpr entry, keyRead⟩

theorem contains_members_of_entry {key value : String}
    (found : (list.store.entries membershipUri).get? key = some value)
    (read : Endpoint.ofKey? key = some endpoint) :
    list.members.contains endpoint = true := by
  rw [SortedMap.contains_iff]
  apply SortedMap.exists_get?_ofList_of_mem
  refine List.mem_filterMap.mpr ⟨(key, value), SortedMap.get?_eq_some_iff.mp found, ?_⟩
  simp only [read]
  rfl

/-- Where one key alone is read as an endpoint, the endpoint has the tags of
that key. -/
theorem get?_members {key value : String}
    (found : (list.store.entries membershipUri).get? key = some value)
    (read : Endpoint.ofKey? key = some endpoint)
    (alone :
      ∀ other, (list.store.entries membershipUri).contains other = true →
        Endpoint.ofKey? other = some endpoint → other = key) :
    list.members.get? endpoint = some (Tags.ofText value) := by
  apply SortedMap.get?_ofList_of_mem
  · refine List.mem_filterMap.mpr ⟨(key, value), SortedMap.get?_eq_some_iff.mp found, ?_⟩
    simp [read]
  · intro tags member
    obtain ⟨⟨other, text⟩, entry, otherRead⟩ := List.mem_filterMap.mp member
    obtain ⟨_, keyRead, same⟩ := Option.map_eq_some_iff.mp otherRead
    cases same
    have otherFound := SortedMap.get?_eq_some_iff.mpr entry
    have sameKey := alone other (SortedMap.contains_iff.mpr ⟨text, otherFound⟩) keyRead
    rw [sameKey, found] at otherFound
    cases otherFound
    rfl

/-! ## Landscapes -/

theorem hostingKey_left_injective {left right : String}
    (same : hostingKey left endpoint = hostingKey right endpoint) :
    left = right := by
  have sameChars := congrArg String.toList same
  simp only [hostingKey, String.toList_append, List.append_assoc] at sameChars
  exact String.toList_injective (List.append_cancel_right sameChars)

/-- The bar in a hosting key is the last one, so the key determines the agent
and the endpoint. -/
theorem hostingKey_injective {left right : String} {first second : Endpoint}
    (firstNumeric : first.HasNumericAddress) (secondNumeric : second.HasNumericAddress)
    (same : hostingKey left first = hostingKey right second) :
    left = right ∧ first = second := by
  have sameChars := congrArg String.toList same
  simp only [hostingKey, String.toList_append, List.append_assoc] at sameChars
  obtain ⟨sameAgents, sameKeys⟩ :=
    Text.append_mark_inj firstNumeric.bar_not_mem_key secondNumeric.bar_not_mem_key sameChars
  exact
    ⟨String.toList_injective sameAgents,
      Endpoint.key_injective (String.toList_injective sameKeys)⟩

private theorem agentOf?_eq_some_iff {key value : String} :
    agentOf? key value = some agent ↔ key = agent ++ "|" ++ value := by
  unfold agentOf?
  constructor
  · intro found
    simp only at found
    split at found
    · rename_i ends
      obtain ⟨front, whole⟩ := List.isSuffixOf_iff_suffix.mp ends
      have named : agent.toList = front := by
        have taken := congrArg String.toList (Option.some.inj found)
        rw [← whole] at taken
        simpa using taken.symm
      apply String.toList_injective
      rw [← whole, ← named]
      simp
    · cases found
  · rintro rfl
    have chars : (agent ++ "|" ++ value).toList = agent.toList ++ '|' :: value.toList := by
      simp
    simp only [chars]
    rw [if_pos (List.isSuffixOf_iff_suffix.mpr (List.suffix_append _ _))]
    simp

theorem landscape_congr {left right : MemberList}
    (sameMembers : left.members = right.members)
    (sameHosting : left.store.entries hostingUri = right.store.entries hostingUri) :
    left.landscape = right.landscape := by
  simp only [landscape, sameMembers, sameHosting]

/-- One more hosting entry. -/
def place (members : Members) (landscape : Landscape) (entry : String × String) : Landscape :=
  match Endpoint.ofKey? entry.2, agentOf? entry.1 entry.2 with
  | some endpoint, some agent =>
      if members.contains endpoint then
        landscape.insert agent
          (SortedSet.add ((landscape.get? agent).getD SortedMap.empty) endpoint)
      else
        landscape
  | _, _ => landscape

theorem landscape_eq (list : MemberList) :
    list.landscape =
      (list.store.entries hostingUri).entries.foldl (place list.members) SortedMap.empty :=
  rfl

private theorem hosts_place_iff {members : Members} {landscape : Landscape} {key value : String} :
    (place members landscape (key, value)).Hosts agent endpoint ↔
      landscape.Hosts agent endpoint ∨
        Endpoint.ofKey? value = some endpoint ∧ agentOf? key value = some agent ∧
          members.contains endpoint = true := by
  unfold place
  split
  · rename_i placed placedAgent read named
    simp only [read, named, Option.some.injEq]
    by_cases known : members.contains placed = true
    · rw [if_pos known]
      unfold Landscape.Hosts
      rw [SortedMap.get?_insert]
      by_cases here : agent = placedAgent
      · subst here
        rw [if_pos rfl, Option.getD_some, SortedSet.contains_add]
        constructor
        · rintro (rfl | already)
          · exact Or.inr ⟨rfl, rfl, known⟩
          · exact Or.inl already
        · rintro (already | ⟨rfl, _, _⟩)
          · exact Or.inr already
          · exact Or.inl rfl
      · rw [if_neg here]
        simp [Ne.symm here]
    · rw [if_neg known]
      constructor
      · exact Or.inl
      · rintro (already | ⟨rfl, _, contained⟩)
        · exact already
        · exact absurd contained known
  · rename_i unread
    constructor
    · exact Or.inl
    · rintro (already | ⟨read, named, _⟩)
      · exact already
      · exact absurd named (unread _ _ read)

/-- An agent is at an endpoint if the endpoint is a member and the agent has an
entry whose value is read as it. -/
theorem hosts_landscape_iff :
    list.landscape.Hosts agent endpoint ↔
      list.members.contains endpoint = true ∧
        ∃ value, (list.store.entries hostingUri).get? (agent ++ "|" ++ value) = some value ∧
          Endpoint.ofKey? value = some endpoint := by
  have placed :
      ∀ (entries : List (String × String)) (start : Landscape),
        (entries.foldl (place list.members) start).Hosts agent endpoint ↔
          start.Hosts agent endpoint ∨
            ∃ entry ∈ entries, Endpoint.ofKey? entry.2 = some endpoint ∧
              agentOf? entry.1 entry.2 = some agent ∧
                list.members.contains endpoint = true := by
    intro entries
    induction entries with
    | nil => simp
    | cons entry rest inductionHypothesis =>
        intro start
        rw [List.foldl_cons, inductionHypothesis, hosts_place_iff, or_assoc]
        simp only [List.mem_cons, exists_eq_or_imp]
  rw [landscape_eq, placed]
  constructor
  · rintro (already | ⟨⟨key, value⟩, entry, read, named, member⟩)
    · exact absurd already (Landscape.not_hosts_empty agent endpoint)
    · have sameKey : key = agent ++ "|" ++ value := agentOf?_eq_some_iff.mp named
      subst sameKey
      exact ⟨member, value, SortedMap.get?_eq_some_iff.mpr entry, read⟩
  · rintro ⟨member, value, found, read⟩
    exact
      Or.inr
        ⟨(agent ++ "|" ++ value, value), SortedMap.get?_eq_some_iff.mp found, read,
          agentOf?_eq_some_iff.mpr rfl, member⟩

end MemberList

end Roster
