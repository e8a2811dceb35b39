import Roster.Proofs.Federation.Coherence

/-!
# Every reachable federation is coherent

The founders start coherent and every step keeps a federation coherent.  A step
that imports is taken apart into the import, after which the federation is
coherent already, and the repair, which a list does of its own accord.
-/

namespace Roster.Federation

universe u

variable {ι : Type u} {founders : ι → Founder} {federation : Federation ι}
  {member : ι} {list : MemberList}

/-! ## The founders -/

def blank (founder : Founder) : MemberList where
  own := founder.own
  tags := founder.tags
  store := { replica := founder.replica }

theorem log_blank (founder : Founder) (uri : String) : (blank founder).log uri = [] :=
  rfl

private theorem ordered_blank (founder : Founder) : (blank founder).Ordered where
  causal _ := Document.Causal.nil
  ascending _ := List.Pairwise.nil
  map_eq uri := by
    rw [log_blank]
    simp
  removed uri := by
    rw [log_blank]
    simp

private theorem extends_blank (founder : Founder) :
    (blank founder).Extends (MemberList.new founder.own founder.tags founder.replica) :=
  MemberList.Extends.of_write (ordered_blank founder) (by decide) _

private theorem coherent_start (founders : ι → Founder) : Coherent founders (start founders) := by
  have ownIssued :
      ∀ member uri, ∀ operation ∈ ((start founders).lists member).log uri,
        operation.replica = (founders member).replica ∧
          (start founders).Issued uri operation := by
    intro member uri operation held
    obtain ⟨more, appended, own⟩ := (extends_blank (founders member)).log_eq uri
    have added : operation ∈ more := by
      have inLog : operation ∈ (blank (founders member)).log uri ++ more := appended ▸ held
      rwa [log_blank, List.nil_append] at inLog
    have ownReplica := (own operation added).1
    refine ⟨ownReplica, member, ?_, held⟩
    exact ownReplica.trans (extends_blank (founders member)).replica_eq.symm
  have nothingWaits :
      ∀ member uri, (((start founders).lists member).store.document uri).waiting = [] :=
    fun member uri => (extends_blank (founders member)).waiting_eq uri
  refine
    { replica_eq := fun member => (extends_blank (founders member)).replica_eq
      tags_eq := fun member => (extends_blank (founders member)).tags_eq
      sound := ?_
      sent_honest := fun entry passed => absurd passed List.not_mem_nil
      batches_honest := fun batch made => absurd made List.not_mem_nil
      reached_taken := fun entry delivered => absurd delivered List.not_mem_nil }
  intro member
  have extended := extends_blank (founders member)
  exact
    { ordered := (ordered_blank (founders member)).write _ _
      both_stopped := extended.both_stopped rfl
      log_issued := fun uri operation held => (ownIssued member uri operation held).2
      waiting_issued := by
        intro uri operation waited
        rw [nothingWaits] at waited
        exact absurd waited List.not_mem_nil
      waiting_idle := by
        intro uri operation waited
        rw [nothingWaits] at waited
        exact absurd waited List.not_mem_nil
      spread := by
        intro uri operation held _
        obtain ⟨more, appended, own⟩ := extended.log_eq uri
        have inLog : operation ∈ (blank (founders member)).log uri ++ more := appended ▸ held
        rw [log_blank, List.nil_append] at inLog
        obtain ⟨_, operations, inside, out⟩ := own operation inLog
        exact ⟨operations, inside, Or.inl out⟩
      outbox_honest := by
        intro update out
        obtain ⟨added, outbox, honest⟩ := extended.outbox_eq
        have inAdded : update ∈ (blank (founders member)).outbox ++ added := outbox ▸ out
        obtain ⟨known, operations, delta, written⟩ :=
          honest update (by simpa [blank] using inAdded)
        refine ⟨known, operations, by rw [delta, Delta.ofBytes?_toBytes], ?_⟩
        intro operation inside
        exact (ownIssued member update.uri operation (written operation inside).2).2 }

/-! ## Exchange -/

/-- What a list drains has passed on. -/
theorem Coherent.pass (coherent : Coherent founders federation) (member : ι) :
    Coherent founders
      { federation with
        sent :=
          federation.sent ++ (federation.lists member).outbox.map fun update =>
            (member, update) } where
  replica_eq := coherent.replica_eq
  tags_eq := coherent.tags_eq
  sound other :=
    (coherent.sound other).mono (fun _ => ⟨rfl, fun _ _ held => held⟩)
      fun _ passed => List.mem_append_left _ passed
  sent_honest entry passed := by
    rcases List.mem_append.mp passed with earlier | drained
    · exact coherent.sent_honest entry earlier
    · obtain ⟨update, out, rfl⟩ := List.mem_map.mp drained
      exact (coherent.sound member).outbox_honest update out
  batches_honest := coherent.batches_honest
  reached_taken := coherent.reached_taken

/-- What was delivered is recorded. -/
private theorem Coherent.record (coherent : Coherent founders federation) {target : ι}
    {update : Update}
    (taken :
      (federation.lists target).stopped = false →
        ∀ operations, Delta.ofBytes? update.delta = some operations →
          ∀ operation ∈ operations, operation ∈ (federation.lists target).log update.uri ∨
            operation ∈ ((federation.lists target).store.document update.uri).waiting) :
    Coherent founders
      { federation with reached := (target, update) :: federation.reached } where
  replica_eq := coherent.replica_eq
  tags_eq := coherent.tags_eq
  sound other :=
    (coherent.sound other).mono (fun _ => ⟨rfl, fun _ _ held => held⟩) fun _ passed => passed
  sent_honest := coherent.sent_honest
  batches_honest := coherent.batches_honest
  reached_taken entry delivered := by
    rcases List.mem_cons.mp delivered with here | earlier
    · subst here
      exact taken
    · exact coherent.reached_taken entry earlier

theorem Coherent.offer (coherent : Coherent founders federation) {digest : Digest}
    {batch : Batch} (made : (federation.lists member).since digest = .ok batch) :
    Coherent founders { federation with batches := batch :: federation.batches } where
  replica_eq := coherent.replica_eq
  tags_eq := coherent.tags_eq
  sound other :=
    (coherent.sound other).mono (fun _ => ⟨rfl, fun _ _ held => held⟩) fun _ passed => passed
  sent_honest := coherent.sent_honest
  batches_honest other held entry inside := by
    rcases List.mem_cons.mp held with here | earlier
    · subst here
      have exported : (federation.lists member).store.since digest = .ok other := by
        unfold MemberList.since at made
        cases result : (federation.lists member).store.since digest with
        | error fault =>
            rw [result] at made
            cases made
        | ok batch =>
            rw [result] at made
            cases made
            rfl
      obtain ⟨operations, readable, kept⟩ := Store.mem_of_since exported inside
      refine ⟨operations, readable, ?_⟩
      intro operation given
      exact (coherent.sound member).log_issued entry.1 operation (kept operation given)
    · exact coherent.batches_honest other earlier entry inside
  reached_taken := coherent.reached_taken

variable [DecidableEq ι]

/-- An outbox may be emptied once all of it has passed on. -/
theorem Coherent.empty (coherent : Coherent founders federation)
    (passed :
      ∀ update ∈ (federation.lists member).outbox, (member, update) ∈ federation.sent) :
    Coherent founders
      (federation.put member { federation.lists member with outbox := [] }) := by
  have before := coherent.sound member
  have outgrows :
      (federation.put member { federation.lists member with outbox := [] }).Outgrows
        federation :=
    outgrows_put rfl fun _ _ held => held
  refine coherent.put ?_ rfl rfl id (fun _ _ held => held) fun _ _ waited => Or.inr waited
  exact
    { ordered := before.ordered.of_logs rfl fun _ => rfl
      both_stopped := before.both_stopped
      log_issued := fun uri operation held =>
        (before.log_issued uri operation held).mono outgrows
      waiting_issued := fun uri operation waited =>
        (before.waiting_issued uri operation waited).mono outgrows
      waiting_idle := before.waiting_idle
      spread := by
        intro uri operation held own
        obtain ⟨operations, inside, out | sent⟩ := before.spread uri operation held own
        · exact ⟨operations, inside, Or.inr (passed _ out)⟩
        · exact ⟨operations, inside, Or.inr sent⟩
      outbox_honest := fun update out => absurd out List.not_mem_nil }

/-- A running list has imported into its store and repaired itself. -/
structure Repaired (founders : ι → Founder) (federation : Federation ι) (target : ι)
    (store : Store) (list : MemberList) : Prop where
  running : (federation.lists target).stopped = false
  coherent : Coherent founders
    (federation.put target { federation.lists target with store })
  absorbs : (federation.lists target).Absorbs store
  repaired : ∃ offered changed made,
    (changed = false → Store.Unmoved (federation.lists target).store store) ∧
      { federation.lists target with store }.repair offered changed = .ok (made, list)

theorem Repaired.evolves {target : ι} {store : Store}
    (imported : Repaired founders federation target store list) :
    MemberList.Evolves { federation.lists target with store } (federation.names target) list
      (MemberList.renamed (federation.names target) (federation.lists target).own list.own) := by
  obtain ⟨offered, changed, made, _, mended⟩ := imported.repaired
  exact MemberList.Evolves.refl.repair mended

theorem Repaired.extends {target : ι} {store : Store}
    (imported : Repaired founders federation target store list) :
    ({ federation.lists target with store } : MemberList).Extends list := by
  have ordered := (imported.coherent.sound target).ordered
  rw [lists_put_self] at ordered
  exact (imported.evolves.extends_ordered ordered).1

theorem Repaired.coherent_after {target : ι} {store : Store}
    (imported : Repaired founders federation target store list)
    (distinct : DistinctReplicas founders) :
    Coherent founders (federation.put target list) := by
  have between :
      (federation.put target { federation.lists target with store }).lists target =
        { federation.lists target with store } :=
    lists_put_self _ _ _
  have betweenNames :
      (federation.put target { federation.lists target with store }).names target =
        federation.names target := by
    rw [names_put_self]
    exact MemberList.renamed_self _ _
  have evolved := imported.evolves
  rw [← between, ← betweenNames] at evolved
  have after := imported.coherent.evolve distinct evolved
  rwa [put_store_put] at after

/-- A running list that receives a delta imports its operations: each takes
effect or waits. -/
theorem Coherent.repaired_of_receive (coherent : Coherent founders federation)
    (distinct : DistinctReplicas founders) {source target : ι} {update : Update}
    {offered : UInt64} {outcome : Except MemberList.Fault MemberList.Outcome}
    (passed : (source, update) ∈ federation.sent)
    (running : (federation.lists target).stopped = false)
    (received : (federation.lists target).receive offered update = .ok (outcome, list)) :
    ∃ store, Repaired founders federation target store list ∧
      ∀ operations, Delta.ofBytes? update.delta = some operations →
        ∀ operation ∈ operations, operation ∈ (store.document update.uri).applied ∨
          operation ∈ (store.document update.uri).waiting := by
  have before := coherent.sound target
  obtain ⟨known, operations, readable, issued⟩ := coherent.sent_honest _ passed
  obtain ⟨made, mended⟩ :=
    MemberList.receive_eq_ok running (before.both_stopped.trans running) known readable received
  refine ⟨_, ⟨running, coherent.receive distinct target issued,
    coherent.absorbs_receive distinct issued, offered, _, made, ?_, mended⟩, ?_⟩
  · intro behind uri
    rw [Store.document_keep]
    split
    · rename_i here
      rw [here]
      exact Store.applied_receive_of_includes (before.ordered.causal update.uri)
        (by simpa using behind)
    · rfl
  · intro others readableOthers operation inside
    rw [readable] at readableOthers
    cases readableOthers
    rw [Store.document_keep_self]
    exact coherent.mem_of_receive distinct (issued operation inside) inside

/-- So does one that merges a batch. -/
theorem Coherent.repaired_of_merge (coherent : Coherent founders federation)
    (distinct : DistinctReplicas founders) {target : ι} {batch : Batch}
    {offered : UInt64} {outcome : Except MemberList.Fault MemberList.Outcome}
    (held : batch ∈ federation.batches)
    (running : (federation.lists target).stopped = false)
    (merged : (federation.lists target).merge offered batch = .ok (outcome, list)) :
    ∃ store, Repaired founders federation target store list := by
  have before := coherent.sound target
  obtain ⟨store, changed, made, imports, unmoved, mended⟩ :=
    MemberList.merge_eq_ok running (before.both_stopped.trans running) before.ordered.causal
      (coherent.batches_honest batch held) merged
  obtain ⟨coherentBetween, absorbs⟩ :=
    Coherent.imports distinct imports coherent rfl fun _ _ issued => issued
  exact ⟨store, running, coherentBetween, absorbs, offered, changed, made, unmoved, mended⟩

/-! ## Steps and runs -/

theorem Coherent.step (coherent : Coherent founders federation)
    (distinct : DistinctReplicas founders) {after : Federation ι} (step : Step federation after) :
    Coherent founders after := by
  cases step with
  | host member agent => exact coherent.evolve distinct (MemberList.Evolves.refl.host agent)
  | stopHosting member agent =>
      exact coherent.evolve distinct (MemberList.Evolves.refl.stopHosting agent)
  | remove member endpoint =>
      exact coherent.evolve distinct (MemberList.Evolves.refl.remove endpoint)
  | stop member => exact coherent.evolve distinct MemberList.Evolves.refl.stop
  | drain member =>
      apply (coherent.pass member).empty
      intro update out
      exact List.mem_append_right _ (List.mem_map.mpr ⟨update, out, rfl⟩)
  | offer member digest =>
      unfold Federation.offer
      split
      · rename_i made
        exact coherent.offer made
      · exact coherent
  | @deliver source update target offered passed =>
      unfold Federation.deliver
      split
      · rename_i outcome list received
        cases stopped : (federation.lists target).stopped with
        | true =>
            rw [MemberList.receive_stopped stopped received, put_lists_self]
            apply coherent.record
            intro running
            rw [stopped] at running
            cases running
        | false =>
            obtain ⟨store, repaired, taken⟩ :=
              coherent.repaired_of_receive distinct passed stopped received
            apply (repaired.coherent_after distinct).record
            rw [lists_put_self]
            intro _ operations readable operation inside
            rcases taken operations readable operation inside with applied | waits
            · exact Or.inl (repaired.extends.log_subset applied)
            · rw [repaired.extends.waiting_eq]
              exact Or.inr waits
      · exact coherent
  | @merge batch target offered held =>
      unfold Federation.merge
      split
      · rename_i outcome list merged
        cases stopped : (federation.lists target).stopped with
        | true =>
            rw [MemberList.merge_stopped stopped merged, put_lists_self]
            exact coherent
        | false =>
            obtain ⟨store, repaired⟩ := coherent.repaired_of_merge distinct held stopped merged
            exact repaired.coherent_after distinct
      · exact coherent

theorem coherent_of_reachable (distinct : DistinctReplicas founders)
    (reachable : Reachable founders federation) :
    Coherent founders federation := by
  induction reachable with
  | refl => exact coherent_start founders
  | tail _ step inductionHypothesis => exact inductionHypothesis.step distinct step

/-! ## Delivering everything -/

/-- Every delta that was drained reaches a list, the latest first. -/
def deliverAll (federation : Federation ι) (target : ι) (offered : UInt64) : Federation ι :=
  federation.sent.reverse.foldl
    (fun federation entry => federation.deliver target offered entry.2) federation

theorem sent_deliver (federation : Federation ι) (target : ι) (offered : UInt64)
    (update : Update) :
    (federation.deliver target offered update).sent = federation.sent := by
  unfold deliver
  split <;> rfl

theorem sent_merge (federation : Federation ι) (target : ι) (offered : UInt64)
    (batch : Batch) :
    (federation.merge target offered batch).sent = federation.sent := by
  unfold merge
  split <;> rfl

theorem relay_deliverAll (federation : Federation ι) (target : ι) (offered : UInt64) :
    Relation.ReflTransGen Relay federation (federation.deliverAll target offered) := by
  have delivered :
      ∀ (entries : List (ι × Update)) (current : Federation ι),
        (∀ entry ∈ entries, entry ∈ current.sent) →
          Relation.ReflTransGen Relay current
            (entries.foldl
              (fun federation entry => federation.deliver target offered entry.2) current) := by
    intro entries
    induction entries with
    | nil =>
        intro current _
        exact Relation.ReflTransGen.refl
    | cons entry rest inductionHypothesis =>
        intro current passed
        have relay : Relay current (current.deliver target offered entry.2) :=
          Relay.deliver target offered (passed entry List.mem_cons_self)
        refine Relation.ReflTransGen.head relay (inductionHypothesis _ ?_)
        intro later member
        rw [sent_deliver]
        exact passed later (List.mem_cons_of_mem _ member)
  exact delivered _ _ fun entry member => List.mem_reverse.mp member

theorem leads_deliverAll (federation : Federation ι) (target : ι) (offered : UInt64) :
    Leads federation (federation.deliverAll target offered) :=
  leads_of_relay (relay_deliverAll federation target offered)

/-! ## Two lists -/

def pair : Bool → Founder
  | false =>
      { own := ⟨"10.0.0.1", 1, 5⟩
        tags := SortedSet.ofList ["gpu"]
        replica := ⟨1⟩ }
  | true =>
      { own := ⟨"10.0.0.2", 2, 7⟩
        tags := SortedMap.empty
        replica := ⟨2⟩ }

theorem distinctReplicas_pair : DistinctReplicas pair := by
  intro left right
  revert left right
  decide

/-- The first list hosts two agents, and each has heard all of the other. -/
def introduced : Federation Bool :=
  let founded := start pair
  let one := founded.put false ((founded.lists false).host "one").2
  let two := one.put false ((one.lists false).host "two").2
  (((two.drain false).drain true).deliverAll true 0).deliverAll false 0

theorem reachable_introduced : Reachable pair introduced := by
  refine Relation.ReflTransGen.trans ?_ (leads_deliverAll _ _ _)
  refine Relation.ReflTransGen.trans ?_ (leads_deliverAll _ _ _)
  refine Relation.ReflTransGen.tail ?_ (Step.drain true)
  refine Relation.ReflTransGen.tail ?_ (Step.drain false)
  refine Relation.ReflTransGen.tail ?_ (Step.host false "two")
  exact Relation.ReflTransGen.single (Step.host false "one")

def evicted : Federation Bool :=
  introduced.put true ((introduced.lists true).remove (pair false).own).2

theorem reachable_evicted : Reachable pair evicted :=
  reachable_introduced.tail (Step.remove true (pair false).own)

end Roster.Federation
