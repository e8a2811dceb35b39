import Roster.Proofs.MemberList.Removal
import Roster.Proofs.MemberList.Supersession

/-!
# Members by other names

Whether an endpoint is a member is asked in two ways: its key has an entry in
the membership map, or some entry of the map is read as the endpoint.  The
answers differ where a key is not read back, and where an entry that is not the
key of an endpoint, an alias, is read as it.

To remove an endpoint is to delete its key.  So an endpoint with an alias stays
a member, and unless the alias happens to be the key of another endpoint that is
removed as well, no removals ever take it away.
-/

namespace Roster

namespace MemberList

variable {list after : MemberList} {endpoint other : Endpoint} {text : String}

/-! ## Entries that are read as an endpoint -/

/-- The text has an entry in the membership map and is read as the endpoint. -/
def Shows (list : MemberList) (text : String) (endpoint : Endpoint) : Prop :=
  (list.store.entries membershipUri).contains text = true ∧
    Endpoint.ofKey? text = some endpoint

/-- An entry other than the key of the endpoint is read as it. -/
def HasAlias (list : MemberList) (endpoint : Endpoint) : Prop :=
  ∃ text, text ≠ endpoint.key ∧ list.Shows text endpoint

private theorem shows_key_iff :
    list.Shows endpoint.key endpoint ↔ list.contains endpoint = true ∧ endpoint.ReadsBack :=
  Iff.rfl

theorem contains_members_iff :
    list.members.contains endpoint = true ↔ ∃ text, list.Shows text endpoint := by
  constructor
  · intro member
    obtain ⟨text, value, found, read⟩ := exists_entry_of_contains_members member
    exact ⟨text, SortedMap.contains_iff.mpr ⟨value, found⟩, read⟩
  · rintro ⟨text, present, read⟩
    obtain ⟨value, found⟩ := SortedMap.contains_iff.mp present
    exact contains_members_of_entry found read

/-- A member goes by its key or by an alias. -/
private theorem contains_members_iff_key_or_alias :
    list.members.contains endpoint = true ↔
      (list.contains endpoint = true ∧ endpoint.ReadsBack) ∨ list.HasAlias endpoint := by
  rw [contains_members_iff, ← shows_key_iff]
  constructor
  · rintro ⟨text, shown⟩
    by_cases here : text = endpoint.key
    · exact Or.inl (here ▸ shown)
    · exact Or.inr ⟨text, here, shown⟩
  · rintro (shown | ⟨text, _, shown⟩)
    · exact ⟨endpoint.key, shown⟩
    · exact ⟨text, shown⟩

/-- The key of an endpoint with an alias would be read back. -/
theorem HasAlias.readsBack (aliased : list.HasAlias endpoint) : endpoint.ReadsBack := by
  obtain ⟨_, _, _, read⟩ := aliased
  exact Endpoint.readsBack_of_ofKey? read

/-- The key is read back where it has an entry, and is the only name of the
endpoint where it has none. -/
private theorem contains_eq_contains_members_iff :
    list.contains endpoint = list.members.contains endpoint ↔
      if list.contains endpoint = true then endpoint.ReadsBack else ¬list.HasAlias endpoint := by
  rw [Bool.eq_iff_iff, contains_members_iff_key_or_alias]
  split
  · rename_i present
    constructor
    · intro agreed
      rcases agreed.mp present with ⟨_, readsBack⟩ | aliased
      · exact readsBack
      · exact aliased.readsBack
    · intro readsBack
      exact iff_of_true present (Or.inl ⟨present, readsBack⟩)
  · rename_i absent
    constructor
    · intro agreed aliased
      exact absent (agreed.mpr (Or.inr aliased))
    · intro unaliased
      refine iff_of_false absent ?_
      rintro (⟨present, _⟩ | aliased)
      · exact absent present
      · exact unaliased aliased

/-! ## Removals -/

theorem shows_withdraw_iff :
    (list.withdraw other).2.Shows text endpoint ↔
      list.Shows text endpoint ∧ text ≠ other.key := by
  unfold Shows
  rw [SortedMap.contains, get?_membership_withdraw, SortedMap.contains]
  by_cases here : text = other.key <;> simp [here]

/-- To remove an endpoint is to delete the entry of its key, unless it is the own one. -/
private theorem shows_remove_iff (running : list.stopped = false) :
    (list.remove other).2.Shows text endpoint ↔
      list.Shows text endpoint ∧ (other ≠ list.own → text ≠ other.key) := by
  by_cases own : other = list.own
  · rw [own, remove_own list running]
    simp
  · rw [remove_of_ne running own, shows_withdraw_iff]
    simp [own]

/-- The list after the endpoints were removed one after another. -/
def removeEach (list : MemberList) : List Endpoint → MemberList
  | [] => list
  | endpoint :: rest => removeEach (list.remove endpoint).2 rest

private theorem shows_removeEach_iff :
    ∀ {gone : List Endpoint} {list : MemberList}, list.stopped = false →
      ((list.removeEach gone).Shows text endpoint ↔
        list.Shows text endpoint ∧ ∀ other ∈ gone, other ≠ list.own → text ≠ other.key)
  | [], list, _ => by simp [removeEach]
  | first :: rest, list, running => by
      have stillRunning : (list.remove first).2.stopped = false := by
        rw [stopped_remove, running]
      rw [removeEach, shows_removeEach_iff stillRunning, shows_remove_iff running, own_remove,
        List.forall_mem_cons, and_assoc]

/-- Asked by its key and asked by the members, an endpoint gets the same answer exactly if
its key is read back where it has an entry, and has no alias where it has none.  An endpoint
that is removed stays a member exactly if it has an alias, and after any number of removals
it is a member exactly if an entry is left that is read as it. -/
theorem member_by_alias (list : MemberList) (endpoint : Endpoint) :
    (list.contains endpoint = list.members.contains endpoint ↔
      if list.contains endpoint = true then endpoint.ReadsBack
      else ¬list.HasAlias endpoint) ∧
      (list.stopped = false →
        (endpoint ≠ list.own →
          ∃ after, list.remove endpoint = (.ok (list.contains endpoint), after) ∧
            after.contains endpoint = false ∧
              (after.members.contains endpoint = true ↔ list.HasAlias endpoint)) ∧
        ∀ gone : List Endpoint,
          (list.removeEach gone).members.contains endpoint = true ↔
            ∃ text, list.Shows text endpoint ∧
              ∀ other ∈ gone, other ≠ list.own → text ≠ other.key) := by
  refine ⟨contains_eq_contains_members_iff, fun running => ⟨fun other => ?_, fun gone => ?_⟩⟩
  · refine ⟨_, remove_of_ne running other, ?_, ?_⟩
    · rw [contains, SortedMap.contains, get?_membership_withdraw, if_pos rfl]
      rfl
    · rw [contains_members_iff]
      simp only [shows_withdraw_iff, HasAlias, and_comm]
  · rw [contains_members_iff]
    simp only [shows_removeEach_iff running]

/-! ## A guest -/

def guest : Endpoint :=
  ⟨"127.0.0.1", 7001, 5⟩

/-- Its key has an entry below but names no endpoint. -/
def nobody : Endpoint :=
  ⟨"", 1, 2⟩

/-- Another list puts the guest, with a zero before its port, and nobody. -/
def miswriting : List Operation :=
  [{ replica := ⟨2⟩
     counter := 0
     lamport := 1
     needs := Version.empty
     map := membershipUri
     key := "127.0.0.1:07001#5"
     value := some "[]" },
   { replica := ⟨2⟩
     counter := 1
     lamport := 2
     needs := Version.empty
     map := membershipUri
     key := nobody.key
     value := some "[]" }]

def miswritten : News :=
  .single { uri := membershipUri, delta := Delta.toBytes miswriting }

private theorem learn_miswritten :
    ∃ made list, founder.learn 20 miswritten = .ok (.ok made, list) ∧ list.stopped = false ∧
      guest ≠ list.own ∧
        list.contains guest = false ∧ list.members.contains guest = true ∧
          list.contains nobody = true ∧ list.members.contains nobody = false := by
  have seen :
      (founder.learn 20 miswritten).toOption.any (fun result =>
        result.1.toOption.isSome && !result.2.stopped && guest ≠ result.2.own &&
          !result.2.contains guest && result.2.members.contains guest &&
            result.2.contains nobody && !result.2.members.contains nobody) = true := by
    decide +kernel
  obtain ⟨⟨outcome, list⟩, learnt, checked⟩ := Attempt.exists_ok_of_any seen
  simp only [Bool.and_eq_true, decide_eq_true_eq, Bool.not_eq_true'] at checked
  obtain ⟨⟨⟨⟨⟨⟨succeeded, running⟩, other⟩, noKey⟩, member⟩, key⟩, noMember⟩ := checked
  cases outcome with
  | error fault => cases succeeded
  | ok made => exact ⟨made, list, learnt, running, other, noKey, member, key, noMember⟩

/-- The guest stays a member, whoever else is removed with it. -/
theorem member_by_alias_miswritten :
    ∃ made list after, founder.learn 20 miswritten = .ok (.ok made, list) ∧
      list.stopped = false ∧ guest ≠ list.own ∧
        list.remove guest = (.ok false, after) ∧ after.members.contains guest = true ∧
          (list.removeEach [guest, nobody, guest]).members.contains guest = true := by
  obtain ⟨made, list, learnt, running, other, noKey, member, _, _⟩ := learn_miswritten
  have aliased : list.HasAlias guest := by
    rcases contains_members_iff_key_or_alias.mp member with ⟨present, _⟩ | aliased
    · rw [noKey] at present
      cases present
    · exact aliased
  obtain ⟨_, removals⟩ := member_by_alias list guest
  obtain ⟨removal, series⟩ := removals running
  obtain ⟨after, removed, _, stays⟩ := removal other
  obtain ⟨text, different, shown⟩ := aliased
  refine
    ⟨made, list, after, learnt, running, other, noKey ▸ removed,
      stays.mpr ⟨text, different, shown⟩, (series _).mpr ⟨text, shown, ?_⟩⟩
  have notNobody : text ≠ nobody.key := by
    rintro rfl
    have unreadable : Endpoint.ofKey? nobody.key ≠ some guest := by decide
    exact unreadable shown.2
  simp [different, notNobody]

/-- A member can be missed when it is asked for by its key, and outlast its removal. -/
theorem member_after_removal :
    ∃ made list after, founder.learn 20 miswritten = .ok (.ok made, list) ∧
      list.contains guest = false ∧ list.members.contains guest = true ∧
        list.contains nobody = true ∧ list.members.contains nobody = false ∧
          guest ≠ list.own ∧ list.remove guest = (.ok false, after) ∧
            after.members.contains guest = true := by
  obtain ⟨made, list, learnt, running, other, noKey, member, key, noMember⟩ := learn_miswritten
  refine
    ⟨made, list, _, learnt, noKey, member, key, noMember, other,
      noKey ▸ remove_of_ne running other, ?_⟩
  obtain ⟨text, shown⟩ := contains_members_iff.mp member
  refine contains_members_iff.mpr ⟨text, shows_withdraw_iff.mpr ⟨shown, ?_⟩⟩
  rintro rfl
  rw [(shows_key_iff.mp shown).1] at noKey
  cases noKey

end MemberList

end Roster
