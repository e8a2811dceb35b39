import Roster.Proofs.Federation
import Roster.Proofs.Store.Authorship

/-!
# What every run keeps

Every operation that is anywhere in a federation is in the log of the list that
wrote it, and every operation in a log has been put into the outbox.  A list
that waits for an operation lacks something that the author had seen; its own
edits never change that, since nobody has seen more of its operations than it
has.
-/

namespace Roster.Federation

universe u

variable {ι : Type u} {founders : ι → Founder} {federation : Federation ι}
  {member : ι} {list : MemberList} {uri : String}

/-- A list in its place in a federation. -/
structure Sound (federation : Federation ι) (member : ι) (list : MemberList) : Prop where
  ordered : list.Ordered
  both_stopped : list.store.stopped = list.stopped
  log_issued : ∀ uri, ∀ operation ∈ list.log uri, federation.Issued uri operation
  waiting_issued : ∀ uri, ∀ operation ∈ (list.store.document uri).waiting,
    federation.Issued uri operation
  waiting_idle : ∀ uri, ∀ operation ∈ (list.store.document uri).waiting,
    Document.readyAt (list.store.document uri).version operation = false
  spread : ∀ uri, ∀ operation ∈ list.log uri, operation.replica = list.store.replica →
    ∃ operations, operation ∈ operations ∧
      ({ uri, delta := Delta.toBytes operations } ∈ list.outbox ∨
        (member, { uri, delta := Delta.toBytes operations }) ∈ federation.sent)
  outbox_honest : ∀ update ∈ list.outbox,
    MemberList.isKnownUri update.uri = true ∧ federation.Honest update.uri update.delta

/-- Every list is sound, and so is what has passed between them. -/
structure Coherent (founders : ι → Founder) (federation : Federation ι) : Prop where
  replica_eq : ∀ member, (federation.lists member).store.replica = (founders member).replica
  tags_eq : ∀ member, (federation.lists member).tags = (founders member).tags
  sound : ∀ member, Sound federation member (federation.lists member)
  sent_honest : ∀ entry ∈ federation.sent,
    MemberList.isKnownUri entry.2.uri = true ∧ federation.Honest entry.2.uri entry.2.delta
  batches_honest : ∀ batch ∈ federation.batches, ∀ entry ∈ batch.entries,
    federation.Honest entry.1 entry.2
  reached_taken : ∀ entry ∈ federation.reached, (federation.lists entry.1).stopped = false →
    ∀ operations, Delta.ofBytes? entry.2.delta = some operations →
      ∀ operation ∈ operations, operation ∈ (federation.lists entry.1).log entry.2.uri ∨
        operation ∈ ((federation.lists entry.1).store.document entry.2.uri).waiting

def DistinctReplicas (founders : ι → Founder) : Prop :=
  Function.Injective fun member => (founders member).replica

theorem Sound.mono {before after : Federation ι} (sound : Sound before member list)
    (outgrows : after.Outgrows before)
    (sent : ∀ entry ∈ before.sent, entry ∈ after.sent) :
    Sound after member list where
  ordered := sound.ordered
  both_stopped := sound.both_stopped
  log_issued uri operation held := (sound.log_issued uri operation held).mono outgrows
  waiting_issued uri operation held := (sound.waiting_issued uri operation held).mono outgrows
  waiting_idle := sound.waiting_idle
  spread uri operation held own := by
    obtain ⟨operations, inside, out | passed⟩ := sound.spread uri operation held own
    · exact ⟨operations, inside, Or.inl out⟩
    · exact ⟨operations, inside, Or.inr (sent _ passed)⟩
  outbox_honest update held := by
    obtain ⟨known, honest⟩ := sound.outbox_honest update held
    exact ⟨known, honest.mono outgrows⟩

namespace Coherent

/-! ## Operations and their authors -/

/-- The lists keep logs that share their operations. -/
theorem authored (coherent : Coherent founders federation) (uri : String) :
    Document.Authored (fun member => (federation.lists member).store.replica)
      (fun member => (federation.lists member).log uri) where
  causal member := (coherent.sound member).ordered.causal uri
  ascending member := (coherent.sound member).ordered.ascending uri
  written member := (coherent.sound member).log_issued uri

theorem injective_replica (coherent : Coherent founders federation)
    (distinct : DistinctReplicas founders) :
    Function.Injective fun member => (federation.lists member).store.replica := by
  intro left right same
  exact
    distinct
      ((coherent.replica_eq left).symm.trans (same.trans (coherent.replica_eq right)))

/-- An issued operation is in the log of its author. -/
theorem mem_log_of_own (coherent : Coherent founders federation)
    (distinct : DistinctReplicas founders) {operation : Operation}
    (issued : federation.Issued uri operation)
    (own : operation.replica = (federation.lists member).store.replica) :
    operation ∈ (federation.lists member).log uri := by
  obtain ⟨author, written, held⟩ := issued
  rwa [← coherent.injective_replica distinct (written.symm.trans own)]

/-- What the version of a list counts is there, if it was issued. -/
theorem mem_log_of_counter_lt (coherent : Coherent founders federation)
    (distinct : DistinctReplicas founders) {operation : Operation}
    (issued : federation.Issued uri operation)
    (counted :
      operation.counter <
        (Document.versionOf ((federation.lists member).log uri)).count operation.replica) :
    operation ∈ (federation.lists member).log uri := by
  have authored := coherent.authored uri
  exact
    authored.mem_of_counter_lt (coherent.injective_replica distinct) (authored.causal member)
      (authored.written member) issued counted

/-- No list has seen more of a list's operations than it has itself. -/
private theorem count_le_own (coherent : Coherent founders federation)
    (distinct : DistinctReplicas founders) (other member : ι) (uri : String) :
    (Document.versionOf ((federation.lists other).log uri)).count
        (federation.lists member).store.replica ≤
      (Document.versionOf ((federation.lists member).log uri)).count
        (federation.lists member).store.replica := by
  have authored := coherent.authored uri
  exact
    authored.count_le (coherent.injective_replica distinct) (authored.causal other)
      (authored.written other) member

/-- An operation that waits goes on waiting while the list edits: what it lacks
is of other lists. -/
private theorem not_readyAt_of_extends (coherent : Coherent founders federation)
    (distinct : DistinctReplicas founders)
    (extended : (federation.lists member).Extends list) {operation : Operation}
    (waited : operation ∈ ((federation.lists member).store.document uri).waiting) :
    Document.readyAt (Document.versionOf (list.log uri)) operation = false := by
  obtain ⟨more, appended, own⟩ := extended.log_eq uri
  have issued := (coherent.sound member).waiting_issued uri operation waited
  have idle := (coherent.sound member).waiting_idle uri operation waited
  have others :
      ∀ replica, replica ≠ (federation.lists member).store.replica →
        (Document.versionOf (list.log uri)).count replica =
          (Document.versionOf ((federation.lists member).log uri)).count replica := by
    intro replica foreign
    rw [appended]
    apply Document.count_versionOf_append_of_ne
    intro added inside same
    exact foreign (same.symm.trans (own added inside).1)
  rw [← Bool.not_eq_true, Document.readyAt_iff]
  rintro ⟨next, seen⟩
  by_cases written : operation.replica = (federation.lists member).store.replica
  · have held := coherent.mem_log_of_own distinct issued written
    have below := ((coherent.sound member).ordered.causal uri).counter_lt held
    have grown :=
      Version.includes_iff.mp
        (Document.includes_versionOf_append ((federation.lists member).log uri) more)
        operation.replica
    rw [← appended] at grown
    omega
  · obtain ⟨author, _, authored⟩ := issued
    have needsSeen := ((coherent.sound author).ordered.causal uri).includes_needs authored
    have ready :
        Document.readyAt ((federation.lists member).store.document uri).version operation =
          true := by
      rw [Document.readyAt_iff, Document.version_eq]
      refine ⟨next.trans (others _ written), Version.includes_iff.mpr ?_⟩
      intro replica
      by_cases ownReplica : replica = (federation.lists member).store.replica
      · subst ownReplica
        exact Nat.le_trans (Version.includes_iff.mp needsSeen _)
          (coherent.count_le_own distinct author member uri)
      · have bound := Version.includes_iff.mp seen replica
        rwa [others replica ownReplica] at bound
    rw [idle] at ready
    cases ready

end Coherent

/-! ## Imports -/

/-- What takes effect by an import of issued operations is of other lists: the
list's own are there already. -/
theorem Coherent.absorbs_receive (coherent : Coherent founders federation)
    (distinct : DistinctReplicas founders) {operations : List Operation}
    (issued : ∀ operation ∈ operations, federation.Issued uri operation) :
    (federation.lists member).Absorbs
      ((federation.lists member).store.keep uri
        (((federation.lists member).store.document uri).receive operations)) where
  replica_eq := rfl
  stopped_eq := rfl
  log_eq tested := by
    by_cases here : tested = uri
    · subst here
      rw [Store.document_keep_self]
      obtain ⟨more, applied, taken, _⟩ :=
        Document.applied_receive ((federation.lists member).store.document tested) operations
      have causal :=
        Document.causal_receive ((coherent.sound member).ordered.causal tested) operations
      rw [applied] at causal
      refine ⟨more, applied, ?_⟩
      intro operation added own
      have operationIssued : federation.Issued tested operation := by
        rcases taken operation added with waited | given
        · exact (coherent.sound member).waiting_issued tested operation waited
        · exact issued operation given
      have held := coherent.mem_log_of_own distinct operationIssued own
      exact (List.nodup_append.mp causal.nodup).2.2 operation held operation added rfl
    · rw [Store.document_keep_of_ne _ _ here]
      exact ⟨[], (List.append_nil _).symm, by simp⟩

/-- An imported operation takes effect or waits, if it was not there. -/
theorem Coherent.mem_of_receive (coherent : Coherent founders federation)
    (distinct : DistinctReplicas founders) {operations : List Operation} {operation : Operation}
    (issued : federation.Issued uri operation) (given : operation ∈ operations) :
    operation ∈ (((federation.lists member).store.document uri).receive operations).applied ∨
      operation ∈
        (((federation.lists member).store.document uri).receive operations).waiting := by
  rcases
      @Document.mem_receive ((federation.lists member).store.document uri) operations operation
        given with
    contained | taken
  · have held : operation ∈ (federation.lists member).log uri :=
      coherent.mem_log_of_counter_lt distinct issued (of_decide_eq_true contained)
    obtain ⟨more, applied, _⟩ :=
      Document.applied_receive ((federation.lists member).store.document uri) operations
    rw [applied]
    exact Or.inl (List.mem_append_left more held)
  · exact taken

/-! ## One list in another state -/

variable [DecidableEq ι]

theorem Coherent.put (coherent : Coherent founders federation)
    (sound : Sound (federation.put member list) member list)
    (sameReplica : list.store.replica = (federation.lists member).store.replica)
    (sameTags : list.tags = (federation.lists member).tags)
    (staysStopped : (federation.lists member).stopped = true → list.stopped = true)
    (keptLog :
      ∀ uri, ∀ operation ∈ (federation.lists member).log uri, operation ∈ list.log uri)
    (keptWaiting :
      ∀ uri, ∀ operation ∈ ((federation.lists member).store.document uri).waiting,
        operation ∈ list.log uri ∨ operation ∈ (list.store.document uri).waiting) :
    Coherent founders (federation.put member list) where
  replica_eq other := by
    by_cases here : other = member
    · subst here
      rw [lists_put_self, sameReplica, coherent.replica_eq]
    · rw [lists_put_of_ne _ _ here, coherent.replica_eq]
  tags_eq other := by
    by_cases here : other = member
    · subst here
      rw [lists_put_self, sameTags, coherent.tags_eq]
    · rw [lists_put_of_ne _ _ here, coherent.tags_eq]
  sound other := by
    by_cases here : other = member
    · subst here
      rwa [lists_put_self]
    · rw [lists_put_of_ne _ _ here]
      exact (coherent.sound other).mono (outgrows_put sameReplica keptLog) fun _ passed => passed
  sent_honest entry passed := by
    obtain ⟨known, honest⟩ := coherent.sent_honest entry passed
    exact ⟨known, honest.mono (outgrows_put sameReplica keptLog)⟩
  batches_honest batch made entry inside :=
    (coherent.batches_honest batch made entry inside).mono (outgrows_put sameReplica keptLog)
  reached_taken entry delivered running operations readable operation inside := by
    by_cases here : entry.1 = member
    · rw [here, lists_put_self] at running ⊢
      have ranBefore : (federation.lists member).stopped = false := by
        cases stopped : (federation.lists member).stopped with
        | false => rfl
        | true =>
            rw [staysStopped stopped] at running
            cases running
      have taken :=
        coherent.reached_taken entry delivered (by rw [here, ranBefore]) operations readable
          operation inside
      rw [here] at taken
      rcases taken with applied | waited
      · exact Or.inl (keptLog _ operation applied)
      · exact keptWaiting _ operation waited
    · rw [lists_put_of_ne _ _ here] at running ⊢
      exact coherent.reached_taken entry delivered running operations readable operation inside

/-! ## Edits of a list's own -/

section Extending

variable (extended : (federation.lists member).Extends list)

include extended

theorem outgrows_of_extends : (federation.put member list).Outgrows federation :=
  outgrows_put extended.replica_eq fun _ _ held => extended.log_subset held

private theorem issued_of_extends {operation : Operation}
    (own : operation.replica = (federation.lists member).store.replica)
    (held : operation ∈ list.log uri) : (federation.put member list).Issued uri operation := by
  refine ⟨member, ?_, ?_⟩
  · rw [lists_put_self, own, extended.replica_eq]
  · rwa [lists_put_self]

namespace Sound

variable (sound : Sound federation member (federation.lists member))

include sound

private theorem log_issued_of_extends {operation : Operation} (held : operation ∈ list.log uri) :
    (federation.put member list).Issued uri operation := by
  obtain ⟨more, appended, own⟩ := extended.log_eq uri
  rw [appended] at held
  rcases List.mem_append.mp held with earlier | added
  · exact (sound.log_issued uri operation earlier).mono (outgrows_of_extends extended)
  · refine issued_of_extends extended (own operation added).1 ?_
    rw [appended]
    exact List.mem_append_right _ added

omit [DecidableEq ι] in
/-- What is written goes into the outbox. -/
private theorem spread_of_extends {operation : Operation} (held : operation ∈ list.log uri)
    (own : operation.replica = list.store.replica) :
    ∃ operations, operation ∈ operations ∧
      ({ uri, delta := Delta.toBytes operations } ∈ list.outbox ∨
        (member, { uri, delta := Delta.toBytes operations }) ∈ federation.sent) := by
  obtain ⟨more, appended, spread⟩ := extended.log_eq uri
  rw [appended] at held
  rcases List.mem_append.mp held with earlier | added
  · obtain ⟨operations, inside, out | passed⟩ :=
      sound.spread uri operation earlier (own.trans extended.replica_eq)
    · obtain ⟨added, outbox, _⟩ := extended.outbox_eq
      refine ⟨operations, inside, Or.inl ?_⟩
      rw [outbox]
      exact List.mem_append_left _ out
    · exact ⟨operations, inside, Or.inr passed⟩
  · obtain ⟨_, operations, inside, out⟩ := spread operation added
    exact ⟨operations, inside, Or.inl out⟩

private theorem outbox_honest_of_extends {update : Update} (out : update ∈ list.outbox) :
    MemberList.isKnownUri update.uri = true ∧
      (federation.put member list).Honest update.uri update.delta := by
  obtain ⟨added, outbox, honest⟩ := extended.outbox_eq
  rw [outbox] at out
  rcases List.mem_append.mp out with earlier | later
  · obtain ⟨knownUri, honestBefore⟩ := sound.outbox_honest update earlier
    exact ⟨knownUri, honestBefore.mono (outgrows_of_extends extended)⟩
  · obtain ⟨knownUri, operations, delta, written⟩ := honest update later
    refine ⟨knownUri, operations, ?_, ?_⟩
    · rw [delta, Delta.ofBytes?_toBytes]
    · intro operation inside
      obtain ⟨own, held⟩ := written operation inside
      exact issued_of_extends extended own held

end Sound

end Extending

theorem Coherent.evolve (coherent : Coherent founders federation)
    (distinct : DistinctReplicas founders) {known : List Endpoint}
    (evolved :
      MemberList.Evolves (federation.lists member) (federation.names member) list known) :
    Coherent founders (federation.put member list) := by
  have before := coherent.sound member
  obtain ⟨extended, ordered⟩ := evolved.extends_ordered before.ordered
  have sound : Sound (federation.put member list) member list :=
    { ordered
      both_stopped := extended.both_stopped before.both_stopped
      log_issued := fun _ _ held => before.log_issued_of_extends extended held
      waiting_issued := by
        intro uri operation waited
        rw [extended.waiting_eq] at waited
        exact (before.waiting_issued uri operation waited).mono (outgrows_of_extends extended)
      waiting_idle := by
        intro uri operation waited
        rw [extended.waiting_eq] at waited
        exact coherent.not_readyAt_of_extends distinct extended waited
      spread := fun _ _ held own => before.spread_of_extends extended held own
      outbox_honest := fun _ out => before.outbox_honest_of_extends extended out }
  refine
    coherent.put sound extended.replica_eq extended.tags_eq extended.stays_stopped
      (fun _ _ held => extended.log_subset held) ?_
  intro uri operation waited
  rw [extended.waiting_eq]
  exact Or.inr waited

/-! ## Imports into one list -/

section Importing

variable {operations : List Operation} (sound : Sound federation member (federation.lists member))
  (issued : ∀ operation ∈ operations, federation.Issued uri operation)

include sound issued

omit [DecidableEq ι] in
private theorem Sound.log_issued_of_receive {tested : String} {operation : Operation}
    (held :
      operation ∈
        (((federation.lists member).store.keep uri
          (((federation.lists member).store.document uri).receive operations)).document
            tested).applied) :
    federation.Issued tested operation := by
  rw [Store.document_keep] at held
  split at held
  · rename_i here
    subst here
    obtain ⟨more, applied, taken, _⟩ :=
      Document.applied_receive ((federation.lists member).store.document tested) operations
    rw [applied] at held
    rcases List.mem_append.mp held with earlier | added
    · exact sound.log_issued tested operation earlier
    · rcases taken operation added with waited | given
      · exact sound.waiting_issued tested operation waited
      · exact issued operation given
  · exact sound.log_issued tested operation held

omit [DecidableEq ι] in
private theorem Sound.waiting_issued_of_receive {tested : String} {operation : Operation}
    (waited :
      operation ∈
        (((federation.lists member).store.keep uri
          (((federation.lists member).store.document uri).receive operations)).document
            tested).waiting) :
    federation.Issued tested operation := by
  rw [Store.document_keep] at waited
  split at waited
  · rename_i here
    subst here
    obtain ⟨_, _, _, left⟩ :=
      Document.applied_receive ((federation.lists member).store.document tested) operations
    rcases left operation waited with waitedBefore | given
    · exact sound.waiting_issued tested operation waitedBefore
    · exact issued operation given
  · exact sound.waiting_issued tested operation waited

end Importing

theorem Coherent.receive (coherent : Coherent founders federation)
    (distinct : DistinctReplicas founders) (member : ι) {operations : List Operation}
    (issued : ∀ operation ∈ operations, federation.Issued uri operation) :
    Coherent founders
      (federation.put member
        { federation.lists member with
          store :=
            (federation.lists member).store.keep uri
              (((federation.lists member).store.document uri).receive operations) }) := by
  have before := coherent.sound member
  have absorbs :
      (federation.lists member).Absorbs
        ((federation.lists member).store.keep uri
          (((federation.lists member).store.document uri).receive operations)) :=
    coherent.absorbs_receive distinct issued
  have outgrows := outgrows_absorb absorbs
  refine coherent.put ?_ rfl rfl id absorbs.log_subset ?_
  · exact
      { ordered :=
          absorbs.ordered before.ordered
            (Store.causal_keep_receive uri operations before.ordered.causal)
        both_stopped := before.both_stopped
        log_issued := fun _ _ held => (before.log_issued_of_receive issued held).mono outgrows
        waiting_issued := fun _ _ waited =>
          (before.waiting_issued_of_receive issued waited).mono outgrows
        waiting_idle := by
          intro tested operation waited
          rw [Store.document_keep] at waited ⊢
          split at waited
          · rename_i here
            rw [if_pos here]
            exact Document.not_readyAt_of_mem_receive waited
          · rename_i elsewhere
            rw [if_neg elsewhere]
            exact before.waiting_idle tested operation waited
        spread := by
          intro tested operation held own
          obtain ⟨more, appended, foreign⟩ := absorbs.log_eq tested
          rw [MemberList.log, appended] at held
          rcases List.mem_append.mp held with earlier | added
          · exact before.spread tested operation earlier own
          · exact absurd own (foreign operation added)
        outbox_honest := by
          intro update out
          obtain ⟨known, honest⟩ := before.outbox_honest update out
          exact ⟨known, honest.mono outgrows⟩ }
  · intro tested operation waited
    by_cases here : tested = uri
    · subst here
      rw [MemberList.log, Store.document_keep_self]
      exact Document.mem_receive_of_waiting operations waited
    · rw [Store.document_keep_of_ne _ _ here]
      exact Or.inr waited

/-- Importing what lists have issued keeps a federation coherent. -/
theorem Coherent.imports (distinct : DistinctReplicas founders)
    {admitted : String → Operation → Prop} {store after : Store}
    (imports : Store.Imports admitted store after) :
    ∀ {federation : Federation ι}, Coherent founders federation →
      (federation.lists member).store = store →
        (∀ uri operation, admitted uri operation → federation.Issued uri operation) →
          Coherent founders
              (federation.put member { federation.lists member with store := after }) ∧
            (federation.lists member).Absorbs after := by
  induction imports with
  | refl store =>
      rintro federation coherent rfl _
      rw [put_lists_self]
      exact ⟨coherent, MemberList.Absorbs.refl _⟩
  | @receive store after uri operations admits _ inductionHypothesis =>
      rintro federation coherent rfl issued
      have operationsIssued : ∀ operation ∈ operations, federation.Issued uri operation :=
        fun operation given => issued uri operation (admits operation given)
      have absorbs :
          (federation.lists member).Absorbs
            ((federation.lists member).store.keep uri
              (((federation.lists member).store.document uri).receive operations)) :=
        coherent.absorbs_receive distinct operationsIssued
      have outgrows := outgrows_absorb absorbs
      have next := coherent.receive distinct member operationsIssued
      obtain ⟨coherentAfter, absorbsAfter⟩ :=
        inductionHypothesis next (by rw [lists_put_self])
          (fun uri operation allowed => (issued uri operation allowed).mono outgrows)
      rw [lists_put_self] at coherentAfter absorbsAfter
      rw [put_store_put] at coherentAfter
      exact ⟨coherentAfter, absorbs.trans absorbsAfter⟩

end Roster.Federation
