import Roster.Proofs.Federation.Attribution
import Roster.Proofs.MemberList.Views

/-!
# Deleted endpoints

The key of an endpoint is put once, and every delete of it is later than that
put.  A list that holds a delete therefore never has an entry for the key
again, whatever it imports and in whatever order.  It can report the endpoint
only through another key that is read as the same endpoint.
-/

namespace Roster

/-- A delete of the endpoint has taken effect. -/
def MemberList.HasDeleted (list : MemberList) (endpoint : Endpoint) : Prop :=
  ∃ delete ∈ list.log membershipUri, delete.key = endpoint.key ∧ delete.value = none

instance (list : MemberList) (endpoint : Endpoint) : Decidable (list.HasDeleted endpoint) :=
  inferInstanceAs (Decidable (∃ delete ∈ _, _ ∧ _))

namespace Federation

universe u

variable {ι : Type u} {founders : ι → Founder} {federation after : Federation ι}
  {member : ι} {endpoint : Endpoint}

def Apart (federation : Federation ι) : Prop :=
  ∀ left right, left ≠ right → ∀ name ∈ federation.names left, name ∉ federation.names right

/-- All puts of one key of the membership map are one operation. -/
private theorem AllAscribed.put_unique (ascribed : AllAscribed founders federation)
    (coherent : Coherent founders federation) (apart : Apart federation) {left right : ι}
    {first second : Operation}
    (firstHeld : first ∈ (federation.lists left).log membershipUri)
    (secondHeld : second ∈ (federation.lists right).log membershipUri)
    (firstPut : first.value.isSome = true) (secondPut : second.value.isSome = true)
    (sameKey : first.key = second.key) :
    first = second := by
  obtain ⟨author, name, known, own, written, key, _⟩ :=
    ascribed.exists_name coherent firstHeld firstPut
  obtain ⟨author', name', known', own', written', key', _⟩ :=
    ascribed.exists_name coherent secondHeld secondPut
  have sameName : name = name' := by
    apply Endpoint.key_injective
    rw [← key, ← key', sameKey]
  have sameAuthor : author = author' := by
    by_contra different
    exact apart author author' different name known (sameName ▸ known')
  subst sameAuthor
  exact
    (ascribed author).attributed.once first written second written' own own' firstPut secondPut
      sameKey

/-- A deleted endpoint has no entry. -/
private theorem AllAscribed.entry_eq_none (ascribed : AllAscribed founders federation)
    (coherent : Coherent founders federation) (apart : Apart federation)
    (deleted : (federation.lists member).HasDeleted endpoint) :
    ((federation.lists member).store.entries membershipUri).get? endpoint.key = none := by
  obtain ⟨delete, held, key, absent⟩ := deleted
  obtain ⟨author, own, written⟩ :=
    (coherent.sound member).log_issued membershipUri delete held
  obtain ⟨first, firstHeld, _, firstKey, firstPut, earlier⟩ :=
    (coherent.sound author).ordered.removed membershipUri delete written own absent
  rw [MemberList.entries_eq, ← key]
  apply Document.get?_entriesOf_eq_none held (coherent.map_eq held)
  intro put putHeld _ putKey isPut
  have same : put = first :=
    ascribed.put_unique coherent apart putHeld firstHeld isPut firstPut
      (putKey.trans firstKey.symm)
  rw [same]
  exact Operation.outranks_iff.mpr (Or.inl earlier)

variable [DecidableEq ι]

private theorem log_subset_of_leads (distinct : DistinctReplicas founders)
    (reachable : Reachable founders federation) (leads : Leads federation after) {uri : String}
    {operation : Operation} (held : operation ∈ (federation.lists member).log uri) :
    operation ∈ (after.lists member).log uri := by
  induction leads with
  | refl => exact held
  | tail before step inductionHypothesis =>
      have coherent := coherent_of_reachable distinct (reachable.trans before)
      obtain ⟨changed, list, change, sameLists, _⟩ := step.change coherent distinct
      rw [sameLists]
      by_cases here : member = changed
      · subst here
        rw [lists_put_self]
        exact change.log_subset coherent uri operation inductionHypothesis
      · rw [lists_put_of_ne _ _ here]
        exact inductionHypothesis

/-- Once a list has merged the delete of an endpoint it never reports that
endpoint again, unless a list has had another endpoint whose key is read as
it. -/
theorem deleted_endpoint_stays_away (distinct : DistinctReplicas founders)
    (reachable : Reachable founders federation)
    (deleted : (federation.lists member).HasDeleted endpoint)
    (leads : Leads federation after) (apart : Apart after)
    (alone :
      ∀ author, ∀ name ∈ after.names author,
        Endpoint.ofKey? name.key = some endpoint → name = endpoint) :
    (after.lists member).members.contains endpoint = false := by
  have reachableAfter : Reachable founders after := reachable.trans leads
  have coherent := coherent_of_reachable distinct reachableAfter
  have ascribed := ascribed_of_reachable distinct reachableAfter
  obtain ⟨delete, held, key, absent⟩ := deleted
  have deletedAfter : (after.lists member).HasDeleted endpoint :=
    ⟨delete, log_subset_of_leads distinct reachable leads held, key, absent⟩
  have missing := ascribed.entry_eq_none coherent apart deletedAfter
  by_contra reported
  obtain ⟨otherKey, value, found, read⟩ :=
    MemberList.exists_entry_of_contains_members (by simpa using reported)
  obtain ⟨put, putHeld, _, putKey, putValue⟩ :=
    Document.exists_put_of_get?_entriesOf found
  obtain ⟨author, name, known, _, _, named, _⟩ :=
    ascribed.exists_name coherent putHeld (by rw [putValue]; rfl)
  have sameKey : name.key = otherKey := named.symm.trans putKey
  have same : name = endpoint := alone author name known (by rw [sameKey, read])
  rw [← same, sameKey, found] at missing
  cases missing

/-- The announcement of the evicted endpoint reaches the list that evicted it
once more. -/
theorem deleted_endpoint_stays_away_evicted :
    DistinctReplicas pair ∧ Reachable pair evicted ∧
      (evicted.lists true).HasDeleted (pair false).own ∧
        Leads evicted (evicted.deliverAll true 0) ∧ Apart (evicted.deliverAll true 0) ∧
          (∀ author, ∀ name ∈ (evicted.deliverAll true 0).names author,
            Endpoint.ofKey? name.key = some (pair false).own → name = (pair false).own) ∧
            ((evicted.deliverAll true 0).lists true).members.contains (pair false).own =
              false := by
  have deleted : (evicted.lists true).HasDeleted (pair false).own := by
    unfold MemberList.HasDeleted
    decide +kernel
  have leads := leads_deliverAll evicted true 0
  have apart : Apart (evicted.deliverAll true 0) := by
    unfold Apart
    decide +kernel
  have alone :
      ∀ author, ∀ name ∈ (evicted.deliverAll true 0).names author,
        Endpoint.ofKey? name.key = some (pair false).own → name = (pair false).own := by
    decide +kernel
  exact
    ⟨distinctReplicas_pair, reachable_evicted, deleted, leads, apart, alone,
      deleted_endpoint_stays_away distinctReplicas_pair reachable_evicted deleted leads apart
        alone⟩

/-! ## Addresses with brackets -/

/-- The address of the second founder starts with a bracket, which is left out
when its key is read. -/
def bracketed : Fin 3 → Founder
  | 0 =>
      { own := ⟨"x", 1, 5⟩
        tags := SortedMap.empty
        replica := ⟨1⟩ }
  | 1 =>
      { own := ⟨"[x", 1, 5⟩
        tags := SortedMap.empty
        replica := ⟨2⟩ }
  | 2 =>
      { own := ⟨"y", 2, 1⟩
        tags := SortedMap.empty
        replica := ⟨3⟩ }

/-- The third list has heard of the others and evicts the first. -/
def misread : Federation (Fin 3) :=
  let heard := (((start bracketed).drain 0).drain 1).deliverAll 2 0
  heard.put 2 ((heard.lists 2).remove (bracketed 0).own).2

/-- A list may go on to report an endpoint that it has deleted. -/
theorem deleted_endpoint_reported :
    DistinctReplicas bracketed ∧ Reachable bracketed misread ∧ Apart misread ∧
      (misread.lists 2).HasDeleted (bracketed 0).own ∧
        (misread.lists 2).members.contains (bracketed 0).own = true := by
  refine ⟨?_, ?_, ?_, ?_, ?_⟩
  · intro left right
    revert left right
    decide
  · refine Relation.ReflTransGen.tail ?_ (Step.remove 2 (bracketed 0).own)
    refine Relation.ReflTransGen.trans ?_ (leads_deliverAll _ _ _)
    refine Relation.ReflTransGen.tail ?_ (Step.drain 1)
    exact Relation.ReflTransGen.single (Step.drain 0)
  · unfold Apart
    decide +kernel
  · unfold MemberList.HasDeleted
    decide +kernel
  · decide +kernel

end Federation

end Roster
