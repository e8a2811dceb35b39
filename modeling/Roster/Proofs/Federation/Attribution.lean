import Roster.Proofs.Federation.Run
import Roster.Proofs.MemberList.Attribution

/-!
# Whose operations are whose

In a step one list changes: of its own accord, by draining its outbox, or by
importing and repairing itself.  None of these lets it write in the name of an
endpoint it never had, so every entry of a map can be traced to the list that
put it, and lists on different hosts never put the same key.
-/

namespace Roster.Federation

universe u

variable {ι : Type u} [DecidableEq ι] {founders : ι → Founder}
  {federation after : Federation ι}

/-! ## What a step changes -/

/-- The ways in which one list changes in a step. -/
inductive Change (founders : ι → Founder) (federation : Federation ι) (member : ι) :
    MemberList → Prop
  | unchanged : Change founders federation member (federation.lists member)
  | host (agent : String) :
      Change founders federation member ((federation.lists member).host agent).2
  | stopHosting (agent : String) :
      Change founders federation member ((federation.lists member).stopHosting agent).2
  | remove (endpoint : Endpoint) :
      Change founders federation member ((federation.lists member).remove endpoint).2
  | stop : Change founders federation member (federation.lists member).stop
  | drain : Change founders federation member (federation.lists member).takeOutbox.2
  | imported {store : Store} {list : MemberList} :
      Repaired founders federation member store list → Change founders federation member list

/-- A delta that is delivered changes its target by an import, or nothing. -/
theorem Coherent.deliver_cases (coherent : Coherent founders federation)
    (distinct : DistinctReplicas founders) {source : ι} {update : Update}
    (passed : (source, update) ∈ federation.sent) (target : ι) (offered : UInt64) :
    ((federation.deliver target offered update).lists = federation.lists ∧
        (federation.deliver target offered update).names = federation.names) ∨
      ∃ store list, Repaired founders federation target store list ∧
        (federation.deliver target offered update).lists =
          (federation.put target list).lists ∧
        (federation.deliver target offered update).names =
          (federation.put target list).names := by
  unfold Federation.deliver
  split
  · rename_i outcome list received
    cases stopped : (federation.lists target).stopped with
    | true =>
        rw [MemberList.receive_stopped stopped received, put_lists_self]
        exact Or.inl ⟨rfl, rfl⟩
    | false =>
        obtain ⟨store, repaired, _⟩ :=
          coherent.repaired_of_receive distinct passed stopped received
        exact Or.inr ⟨store, list, repaired, rfl, rfl⟩
  · exact Or.inl ⟨rfl, rfl⟩

/-- So does a batch that is merged. -/
theorem Coherent.merge_cases (coherent : Coherent founders federation)
    (distinct : DistinctReplicas founders) {batch : Batch}
    (held : batch ∈ federation.batches) (target : ι) (offered : UInt64) :
    ((federation.merge target offered batch).lists = federation.lists ∧
        (federation.merge target offered batch).names = federation.names) ∨
      ∃ store list, Repaired founders federation target store list ∧
        (federation.merge target offered batch).lists = (federation.put target list).lists ∧
        (federation.merge target offered batch).names =
          (federation.put target list).names := by
  unfold Federation.merge
  split
  · rename_i outcome list merged
    cases stopped : (federation.lists target).stopped with
    | true =>
        rw [MemberList.merge_stopped stopped merged, put_lists_self]
        exact Or.inl ⟨rfl, rfl⟩
    | false =>
        obtain ⟨store, repaired⟩ := coherent.repaired_of_merge distinct held stopped merged
        exact Or.inr ⟨store, list, repaired, rfl, rfl⟩
  · exact Or.inl ⟨rfl, rfl⟩

/-- A step changes one list and leaves the others as they are. -/
theorem Step.change (step : Step federation after) (coherent : Coherent founders federation)
    (distinct : DistinctReplicas founders) :
    ∃ member list, Change founders federation member list ∧
      after.lists = (federation.put member list).lists ∧
      after.names = (federation.put member list).names := by
  have unchanged :
      ∀ member : ι, after.lists = federation.lists ∧ after.names = federation.names →
        ∃ changed list, Change founders federation changed list ∧
          after.lists = (federation.put changed list).lists ∧
          after.names = (federation.put changed list).names := by
    intro member same
    refine ⟨member, _, Change.unchanged, ?_⟩
    rwa [put_lists_self]
  cases step with
  | host member agent => exact ⟨member, _, Change.host agent, rfl, rfl⟩
  | stopHosting member agent => exact ⟨member, _, Change.stopHosting agent, rfl, rfl⟩
  | remove member endpoint => exact ⟨member, _, Change.remove endpoint, rfl, rfl⟩
  | stop member => exact ⟨member, _, Change.stop, rfl, rfl⟩
  | drain member => exact ⟨member, _, Change.drain, rfl, rfl⟩
  | offer member digest =>
      refine unchanged member ?_
      unfold Federation.offer
      split <;> exact ⟨rfl, rfl⟩
  | deliver target offered passed =>
      rcases coherent.deliver_cases distinct passed target offered with
        same | ⟨store, list, repaired, sameLists, sameNames⟩
      · exact unchanged target same
      · exact ⟨target, list, Change.imported repaired, sameLists, sameNames⟩
  | merge target offered held =>
      rcases coherent.merge_cases distinct held target offered with
        same | ⟨store, list, repaired, sameLists, sameNames⟩
      · exact unchanged target same
      · exact ⟨target, list, Change.imported repaired, sameLists, sameNames⟩

/-- A list that changes evolves, drains its outbox or has imported. -/
theorem Change.evolves {member : ι} {list : MemberList}
    (change : Change founders federation member list) :
    MemberList.Evolves (federation.lists member) (federation.names member) list
        (MemberList.renamed (federation.names member) (federation.lists member).own list.own) ∨
      list = { federation.lists member with outbox := [] } ∨
        ∃ store, Repaired founders federation member store list := by
  cases change with
  | unchanged =>
      rw [MemberList.renamed_self]
      exact Or.inl MemberList.Evolves.refl
  | host agent =>
      rw [MemberList.own_host, MemberList.renamed_self]
      exact Or.inl (MemberList.Evolves.refl.host agent)
  | stopHosting agent =>
      rw [MemberList.own_stopHosting, MemberList.renamed_self]
      exact Or.inl (MemberList.Evolves.refl.stopHosting agent)
  | remove endpoint =>
      rw [MemberList.own_remove, MemberList.renamed_self]
      exact Or.inl (MemberList.Evolves.refl.remove endpoint)
  | stop =>
      rw [MemberList.own_stop, MemberList.renamed_self]
      exact Or.inl MemberList.Evolves.refl.stop
  | drain => exact Or.inr (Or.inl rfl)
  | imported repaired => exact Or.inr (Or.inr ⟨_, repaired⟩)

/-- Nothing that took effect is ever forgotten. -/
theorem Change.log_subset {member : ι} {list : MemberList}
    (change : Change founders federation member list)
    (coherent : Coherent founders federation) (uri : String) (operation : Operation)
    (held : operation ∈ (federation.lists member).log uri) :
    operation ∈ list.log uri := by
  rcases change.evolves with evolved | rfl | ⟨store, repaired⟩
  · exact (evolved.extends_ordered (coherent.sound member).ordered).1.log_subset held
  · exact held
  · exact repaired.extends.log_subset (repaired.absorbs.log_subset uri operation held)

/-! ## Attribution -/

/-- A list puts in the name of its own endpoints only, all of which are on the
host it was founded on. -/
structure Ascribed (founder : Founder) (list : MemberList) (names : List Endpoint) : Prop where
  attributed : list.Attributed names
  named : list.Named names
  home : list.own.sameHost founder.own = true

def AllAscribed (founders : ι → Founder) (federation : Federation ι) : Prop :=
  ∀ member, Ascribed (founders member) (federation.lists member) (federation.names member)

omit [DecidableEq ι] in
private theorem ascribed_start (founders : ι → Founder) (member : ι) :
    Ascribed (founders member) ((start founders).lists member)
      ((start founders).names member) where
  attributed := by
    have nothing : (blank (founders member)).Attributed [] :=
      { descending := List.Pairwise.nil
        announced := by simp [log_blank]
        once := by simp [log_blank]
        placed := by simp [log_blank] }
    have announced :
        ((blank (founders member)).announce).Attributed [(founders member).own] :=
      nothing.announce (by simp)
    exact announced
  named := ⟨[], by simp [start, MemberList.new, MemberList.announce]⟩
  home := by
    simp [start, MemberList.new, MemberList.announce, Endpoint.sameHost_iff]

theorem Ascribed.change {member : ι} {list : MemberList}
    (ascribed :
      Ascribed (founders member) (federation.lists member) (federation.names member))
    (coherent : Coherent founders federation)
    (change : Change founders federation member list) :
    Ascribed (founders member) list ((federation.put member list).names member) := by
  rw [names_put_self]
  rcases change.evolves with evolved | rfl | ⟨store, repaired⟩
  · obtain ⟨attributed, named⟩ :=
      evolved.attributed_named (coherent.sound member).ordered ascribed.attributed
        ascribed.named
    exact
      { attributed
        named
        home := Endpoint.sameHost_trans evolved.sameHost ascribed.home }
  · rw [MemberList.renamed_self]
    exact
      { attributed := ascribed.attributed.of_puts rfl rfl fun _ _ held _ _ => held
        named := ascribed.named
        home := ascribed.home }
  · have ordered := (repaired.coherent.sound member).ordered
    rw [lists_put_self] at ordered
    obtain ⟨attributed, named⟩ :=
      repaired.evolves.attributed_named ordered
        (ascribed.attributed.absorb repaired.absorbs) ascribed.named
    exact
      { attributed
        named
        home := Endpoint.sameHost_trans repaired.evolves.sameHost ascribed.home }

theorem ascribed_of_reachable (distinct : DistinctReplicas founders)
    (reachable : Reachable founders federation) :
    AllAscribed founders federation := by
  intro member
  induction reachable with
  | refl => exact ascribed_start founders member
  | tail earlier step inductionHypothesis =>
      have coherent := coherent_of_reachable distinct earlier
      obtain ⟨changed, list, change, sameLists, sameNames⟩ := step.change coherent distinct
      rw [sameLists, sameNames]
      by_cases here : member = changed
      · subst here
        rw [lists_put_self]
        exact inductionHypothesis.change coherent change
      · rw [lists_put_of_ne _ _ here, names_put_of_ne _ _ here]
        exact inductionHypothesis

/-! ## Tracing operations -/

section Tracing

omit [DecidableEq ι]

variable {member : ι} {operation : Operation}

theorem Coherent.map_eq (coherent : Coherent founders federation) {uri : String}
    (held : operation ∈ (federation.lists member).log uri) :
    operation.map = uri := by
  obtain ⟨author, own, written⟩ := (coherent.sound member).log_issued uri operation held
  exact (coherent.sound author).ordered.map_eq uri operation written own

/-- A put of the membership map is of an endpoint of its author. -/
theorem AllAscribed.exists_name (ascribed : AllAscribed founders federation)
    (coherent : Coherent founders federation)
    (held : operation ∈ (federation.lists member).log membershipUri)
    (put : operation.value.isSome = true) :
    ∃ author, ∃ name ∈ federation.names author,
      operation.replica = (federation.lists author).store.replica ∧
        operation ∈ (federation.lists author).log membershipUri ∧
          operation.key = name.key ∧
            operation.value = some (federation.lists author).tags.toText := by
  obtain ⟨author, own, written⟩ :=
    (coherent.sound member).log_issued membershipUri operation held
  obtain ⟨value, name, known, key⟩ :=
    (ascribed author).attributed.announced operation written own put
  exact ⟨author, name, known, own, written, key, value⟩

/-- A put of the hosting map is of an endpoint of its author. -/
theorem AllAscribed.exists_placed (ascribed : AllAscribed founders federation)
    (coherent : Coherent founders federation)
    (held : operation ∈ (federation.lists member).log hostingUri)
    (put : operation.value.isSome = true) :
    ∃ author agent, ∃ name ∈ federation.names author,
      operation.replica = (federation.lists author).store.replica ∧
        operation.key = MemberList.hostingKey agent name ∧
          operation.value = some name.key := by
  obtain ⟨author, own, written⟩ :=
    (coherent.sound member).log_issued hostingUri operation held
  obtain ⟨agent, name, known, key, value⟩ :=
    (ascribed author).attributed.placed operation written own put
  exact ⟨author, agent, name, known, own, key, value⟩

end Tracing

end Roster.Federation
