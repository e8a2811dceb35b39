import Roster.Proofs.MemberList.Evolution
import Roster.Proofs.Store

/-!
# What a member list writes

A list appends operations of its own to the logs of its two maps and puts every
one of them into its outbox.  Its operations are later than all that stand
before them, and it deletes a key only after an operation that puts it.
-/

namespace Roster

namespace MemberList

variable {list : MemberList} {uri : String} {edits : List Edit} {names : List Endpoint}

def log (list : MemberList) (uri : String) : List Operation :=
  (list.store.document uri).applied

theorem entries_eq (list : MemberList) (uri : String) :
    list.store.entries uri = Document.entriesOf uri (list.log uri) :=
  rfl

/-! ## Editing -/

theorem document_write (list : MemberList) (uri tested : String) (edits : List Edit) :
    (list.write uri edits).2.store.document tested =
      if tested = uri then (list.store.document uri).write list.store.replica uri edits
      else list.store.document tested := by
  unfold write
  split
  · rename_i empty
    rw [List.isEmpty_iff.mp empty]
    by_cases here : tested = uri
    · rw [if_pos here, here]
      rfl
    · rw [if_neg here]
  · exact Store.document_keep _ _ _ _

@[simp]
theorem replica_write : (list.write uri edits).2.store.replica = list.store.replica := by
  unfold write
  split <;> rfl

@[simp]
theorem storeStopped_write : (list.write uri edits).2.store.stopped = list.store.stopped := by
  unfold write
  split <;> rfl

theorem waiting_write (list : MemberList) (uri tested : String) (edits : List Edit) :
    ((list.write uri edits).2.store.document tested).waiting =
      (list.store.document tested).waiting := by
  rw [document_write]
  split
  · rename_i here
    rw [Document.waiting_write, here]
  · rfl

theorem log_write_of_ne {tested : String} (elsewhere : tested ≠ uri) :
    (list.write uri edits).2.log tested = list.log tested := by
  rw [log, document_write, if_neg elsewhere]
  rfl

/-- A batch appends operations for its edits, later than all before them, and
puts a delta of them into the outbox. -/
theorem log_write (causal : Document.Causal (list.log uri))
    (ascending : Document.Ascending list.store.replica (list.log uri)) (edits : List Edit) :
    ∃ more, (list.write uri edits).2.log uri = list.log uri ++ more ∧
      (∀ operation ∈ more,
        Document.Stems (list.store.document uri) list.store.replica uri edits operation ∧
          ∀ earlier ∈ list.log uri, earlier.lamport < operation.lamport) ∧
      (list.write uri edits).2.outbox =
        list.outbox ++ if more = [] then [] else [{ uri, delta := Delta.toBytes more }] := by
  obtain ⟨more, applied, stems⟩ :=
    Document.applied_write (list.store.document uri) list.store.replica uri edits
  have ascendingAfter :
      Document.Ascending list.store.replica
        ((list.store.document uri).write list.store.replica uri edits).applied :=
    Document.ascending_write ascending uri edits
  rw [applied] at ascendingAfter
  refine ⟨more, ?_, ?_, ?_⟩
  · rw [log, document_write, if_pos rfl, applied]
    rfl
  · intro operation member
    refine ⟨stems operation member, ?_⟩
    intro earlier before
    exact (List.pairwise_append.mp ascendingAfter).2.2 earlier before operation member
      (stems operation member).replica_eq
  · unfold write
    split
    · rename_i empty
      rw [List.isEmpty_iff.mp empty] at applied
      have none : more = [] := by
        simpa using (List.append_cancel_left (applied.symm.trans (List.append_nil _).symm))
      rw [if_pos none, List.append_nil]
    · simp only [Store.write_fst causal applied]
      split <;> rfl

/-- A batch appends one operation for each edit at most. -/
theorem exists_log_write (list : MemberList) (uri : String) (edits : List Edit) :
    ∃ more, (list.write uri edits).2.log uri = list.log uri ++ more ∧
      more.length ≤ edits.length ∧
        ∀ operation ∈ more,
          Document.Stems (list.store.document uri) list.store.replica uri edits operation := by
  obtain ⟨more, applied, stems⟩ :=
    Document.applied_write (list.store.document uri) list.store.replica uri edits
  have short :=
    Document.length_write_le (list.store.document uri) list.store.replica uri edits
  rw [applied, List.length_append] at short
  refine ⟨more, ?_, by omega, stems⟩
  rw [log, document_write, if_pos rfl, applied]
  rfl

/-- A batch of deletes puts nothing. -/
theorem mem_log_of_erase {tested : String} {operation : Operation}
    (deletes : ∀ edit ∈ edits, edit.value = none)
    (held : operation ∈ (list.write uri edits).2.log tested)
    (put : operation.value.isSome = true) :
    operation ∈ list.log tested := by
  by_cases here : tested = uri
  · subst here
    obtain ⟨more, appended, _, stems⟩ := exists_log_write list tested edits
    rw [appended] at held
    rcases List.mem_append.mp held with before | added
    · exact before
    · obtain ⟨edit, member, _, _, sameValue⟩ := (stems operation added).exists_edit
      rw [sameValue, deletes edit member] at put
      cases put
  · rwa [log_write_of_ne here] at held

/-- A single edit appends one operation of the list's own at most. -/
theorem log_write_singleton (list : MemberList) (uri : String) (edit : Edit) :
    ∃ more, (list.write uri [edit]).2.log uri = list.log uri ++ more ∧
      (∀ first ∈ more, ∀ second ∈ more, first = second) ∧
      ∀ operation ∈ more, operation.replica = list.store.replica ∧
        operation.key = edit.key ∧ operation.value = edit.value := by
  rw [log, document_write, if_pos rfl]
  rcases
      Document.applied_write_singleton (list.store.document uri) list.store.replica uri edit with
    same | appended
  · exact ⟨[], by rw [same, List.append_nil]; rfl, by simp, by simp⟩
  · refine ⟨_, appended, by simp, ?_⟩
    intro operation added
    rw [List.mem_singleton.mp added]
    exact ⟨rfl, rfl, rfl⟩

/-! ## Order -/

/-- The logs are causal, and the operations of a list are later than all before
them.  A delete follows an operation that puts its key. -/
structure Ordered (list : MemberList) : Prop where
  causal : ∀ uri, Document.Causal (list.log uri)
  ascending : ∀ uri, Document.Ascending list.store.replica (list.log uri)
  map_eq : ∀ uri, ∀ operation ∈ list.log uri, operation.replica = list.store.replica →
    operation.map = uri
  removed : ∀ uri, ∀ operation ∈ list.log uri, operation.replica = list.store.replica →
    operation.value = none →
      ∃ put ∈ list.log uri, put.map = uri ∧ put.key = operation.key ∧
        put.value.isSome = true ∧ put.lamport < operation.lamport

namespace Ordered

theorem of_logs {before after : MemberList} (ordered : Ordered before)
    (sameReplica : after.store.replica = before.store.replica)
    (sameLogs : ∀ uri, after.log uri = before.log uri) :
    Ordered after where
  causal uri := by
    rw [sameLogs]
    exact ordered.causal uri
  ascending uri := by
    rw [sameLogs, sameReplica]
    exact ordered.ascending uri
  map_eq uri := by
    rw [sameLogs, sameReplica]
    exact ordered.map_eq uri
  removed uri := by
    rw [sameLogs, sameReplica]
    exact ordered.removed uri

/-- Operations of others change nothing about a list's own. -/
theorem of_foreign {before after : MemberList} (ordered : Ordered before)
    (sameReplica : after.store.replica = before.store.replica)
    (causal : ∀ uri, Document.Causal (after.log uri))
    (foreign :
      ∀ uri, ∃ more, after.log uri = before.log uri ++ more ∧
        ∀ operation ∈ more, operation.replica ≠ before.store.replica) :
    Ordered after where
  causal := causal
  ascending uri := by
    obtain ⟨more, appended, others⟩ := foreign uri
    rw [sameReplica, appended]
    exact (ordered.ascending uri).append_foreign others
  map_eq uri operation member := by
    obtain ⟨more, appended, others⟩ := foreign uri
    rw [sameReplica]
    intro own
    rw [appended] at member
    rcases List.mem_append.mp member with held | added
    · exact ordered.map_eq uri operation held own
    · exact absurd own (others operation added)
  removed uri operation member := by
    obtain ⟨more, appended, others⟩ := foreign uri
    rw [sameReplica]
    intro own absent
    rw [appended] at member ⊢
    rcases List.mem_append.mp member with held | added
    · obtain ⟨put, putMember, properties⟩ := ordered.removed uri operation held own absent
      exact ⟨put, List.mem_append_left _ putMember, properties⟩
    · exact absurd own (others operation added)

/-- What a batch appends to the log of any map. -/
theorem log_write (ordered : Ordered list) (uri : String) (edits : List Edit)
    (tested : String) :
    ∃ more, (list.write uri edits).2.log tested = list.log tested ++ more ∧
      ∀ operation ∈ more, tested = uri ∧
        Document.Stems (list.store.document uri) list.store.replica uri edits operation ∧
          ∀ earlier ∈ list.log uri, earlier.lamport < operation.lamport := by
  by_cases here : tested = uri
  · subst here
    obtain ⟨more, appended, stems, _⟩ :=
      MemberList.log_write (ordered.causal tested) (ordered.ascending tested) edits
    exact ⟨more, appended, fun operation member => ⟨rfl, stems operation member⟩⟩
  · exact ⟨[], by rw [log_write_of_ne here, List.append_nil], by simp⟩

theorem write (ordered : Ordered list) (uri : String) (edits : List Edit) :
    Ordered (list.write uri edits).2 where
  causal tested := by
    by_cases here : tested = uri
    · subst here
      rw [log, document_write, if_pos rfl]
      exact Document.causal_write (ordered.causal tested) _ _ _
    · rw [log_write_of_ne here]
      exact ordered.causal tested
  ascending tested := by
    rw [replica_write]
    by_cases here : tested = uri
    · subst here
      rw [log, document_write, if_pos rfl]
      exact Document.ascending_write (ordered.ascending tested) _ _
    · rw [log_write_of_ne here]
      exact ordered.ascending tested
  map_eq tested operation member := by
    rw [replica_write]
    intro own
    obtain ⟨more, appended, stems⟩ := ordered.log_write uri edits tested
    rw [appended] at member
    rcases List.mem_append.mp member with earlier | last
    · exact ordered.map_eq tested operation earlier own
    · obtain ⟨rfl, stem, _⟩ := stems operation last
      exact stem.map_eq
  removed tested operation member := by
    rw [replica_write]
    intro own absent
    obtain ⟨more, appended, stems⟩ := ordered.log_write uri edits tested
    rw [appended] at member ⊢
    rcases List.mem_append.mp member with earlier | last
    · obtain ⟨put, putMember, properties⟩ :=
        ordered.removed tested operation earlier own absent
      exact ⟨put, List.mem_append_left _ putMember, properties⟩
    · obtain ⟨rfl, stem, later⟩ := stems operation last
      obtain ⟨edit, _, changes, sameKey, sameValue⟩ := stem.exists_edit
      have present :
          ((list.store.document tested).entries tested).get? edit.key ≠ none := by
        intro missing
        have unchanged : edit.changes ((list.store.document tested).entries tested) = false := by
          rw [Document.changes_eq_false_iff, missing, ← sameValue, absent]
        rw [changes] at unchanged
        cases unchanged
      obtain ⟨value, found⟩ := Option.ne_none_iff_exists'.mp present
      obtain ⟨put, putMember, putMap, putKey, putValue⟩ :=
        Document.exists_put_of_get?_entriesOf found
      exact
        ⟨put, List.mem_append_left _ putMember, putMap, putKey.trans sameKey.symm,
          by rw [putValue, Option.isSome_some], later put putMember⟩

end Ordered

/-! ## Growth -/

/-- A list holds what another held and has appended operations of its own, all
of which are in its outbox. -/
structure Extends (before after : MemberList) : Prop where
  tags_eq : after.tags = before.tags
  replica_eq : after.store.replica = before.store.replica
  stays_stopped : before.stopped = true → after.stopped = true
  both_stopped : before.store.stopped = before.stopped → after.store.stopped = after.stopped
  waiting_eq : ∀ uri,
    (after.store.document uri).waiting = (before.store.document uri).waiting
  log_eq : ∀ uri, ∃ more, after.log uri = before.log uri ++ more ∧
    ∀ operation ∈ more, operation.replica = before.store.replica ∧
      ∃ operations, operation ∈ operations ∧
        { uri, delta := Delta.toBytes operations } ∈ after.outbox
  outbox_eq : ∃ added, after.outbox = before.outbox ++ added ∧
    ∀ update ∈ added, isKnownUri update.uri = true ∧
      ∃ operations, update.delta = Delta.toBytes operations ∧
        ∀ operation ∈ operations, operation.replica = before.store.replica ∧
          operation ∈ after.log update.uri

namespace Extends

theorem refl (list : MemberList) : Extends list list where
  tags_eq := rfl
  replica_eq := rfl
  stays_stopped := id
  both_stopped := id
  waiting_eq _ := rfl
  log_eq _ := ⟨[], by simp, by simp⟩
  outbox_eq := ⟨[], by simp, by simp⟩

theorem log_subset {before after : MemberList} (extended : Extends before after) {uri : String}
    {operation : Operation} (member : operation ∈ before.log uri) :
    operation ∈ after.log uri := by
  obtain ⟨more, appended, _⟩ := extended.log_eq uri
  rw [appended]
  exact List.mem_append_left more member

theorem trans {first second third : MemberList} (left : Extends first second)
    (right : Extends second third) :
    Extends first third where
  tags_eq := right.tags_eq.trans left.tags_eq
  replica_eq := right.replica_eq.trans left.replica_eq
  stays_stopped stopped := right.stays_stopped (left.stays_stopped stopped)
  both_stopped same := right.both_stopped (left.both_stopped same)
  waiting_eq uri := (right.waiting_eq uri).trans (left.waiting_eq uri)
  log_eq uri := by
    obtain ⟨before, leftLog, leftOwn⟩ := left.log_eq uri
    obtain ⟨after, rightLog, rightOwn⟩ := right.log_eq uri
    obtain ⟨added, outbox, _⟩ := right.outbox_eq
    refine ⟨before ++ after, by rw [rightLog, leftLog, List.append_assoc], ?_⟩
    intro operation member
    rcases List.mem_append.mp member with earlier | later
    · obtain ⟨own, operations, inside, sent⟩ := leftOwn operation earlier
      refine ⟨own, operations, inside, ?_⟩
      rw [outbox]
      exact List.mem_append_left added sent
    · obtain ⟨own, sent⟩ := rightOwn operation later
      exact ⟨own.trans left.replica_eq, sent⟩
  outbox_eq := by
    obtain ⟨before, leftOutbox, leftHonest⟩ := left.outbox_eq
    obtain ⟨after, rightOutbox, rightHonest⟩ := right.outbox_eq
    refine ⟨before ++ after, by rw [rightOutbox, leftOutbox, List.append_assoc], ?_⟩
    intro update member
    rcases List.mem_append.mp member with earlier | later
    · obtain ⟨known, operations, delta, honest⟩ := leftHonest update earlier
      refine ⟨known, operations, delta, ?_⟩
      intro operation inside
      obtain ⟨own, issued⟩ := honest operation inside
      exact ⟨own, right.log_subset issued⟩
    · obtain ⟨known, operations, delta, honest⟩ := rightHonest update later
      refine ⟨known, operations, delta, ?_⟩
      intro operation inside
      obtain ⟨own, issued⟩ := honest operation inside
      exact ⟨own.trans left.replica_eq, issued⟩

theorem of_write (ordered : Ordered list) (known : isKnownUri uri = true) (edits : List Edit) :
    Extends list (list.write uri edits).2 := by
  obtain ⟨more, appended, stems, outbox⟩ :=
    MemberList.log_write (ordered.causal uri) (ordered.ascending uri) edits
  exact
    { tags_eq := tags_write
      replica_eq := replica_write
      stays_stopped := fun stopped => stopped_write.trans stopped
      both_stopped := fun same => by rw [storeStopped_write, stopped_write, same]
      waiting_eq := fun tested => waiting_write list uri tested edits
      log_eq := by
        intro tested
        by_cases here : tested = uri
        · subst here
          refine ⟨more, appended, ?_⟩
          intro operation member
          refine ⟨(stems operation member).1.replica_eq, more, member, ?_⟩
          rw [outbox, if_neg (List.ne_nil_of_mem member)]
          exact List.mem_append_right _ List.mem_cons_self
        · exact ⟨[], by rw [log_write_of_ne here, List.append_nil], by simp⟩
      outbox_eq := by
        refine ⟨_, outbox, ?_⟩
        intro update member
        split at member
        · exact absurd member List.not_mem_nil
        · cases List.mem_singleton.mp member
          refine ⟨known, more, rfl, ?_⟩
          intro operation inside
          refine ⟨(stems operation inside).1.replica_eq, ?_⟩
          rw [appended]
          exact List.mem_append_right _ inside }

end Extends

/-- Whatever a list does of its own accord extends it. -/
theorem Evolves.extends_ordered {start after : MemberList} {names known : List Endpoint}
    (evolved : Evolves start names after known) (ordered : Ordered start) :
    Extends start after ∧ Ordered after := by
  induction evolved with
  | refl => exact ⟨Extends.refl start, ordered⟩
  | erase _ knownUri _ inductionHypothesis =>
      obtain ⟨extended, orderedBefore⟩ := inductionHypothesis
      exact ⟨extended.trans (Extends.of_write orderedBefore knownUri _), orderedBefore.write _ _⟩
  | place _ _ inductionHypothesis =>
      obtain ⟨extended, orderedBefore⟩ := inductionHypothesis
      exact ⟨extended.trans (Extends.of_write orderedBefore (by decide) _), orderedBefore.write _ _⟩
  | @rejoin before _ own _ _ inductionHypothesis =>
      obtain ⟨extended, orderedBefore⟩ := inductionHypothesis
      have orderedNamed : Ordered { before with own } :=
        orderedBefore.of_logs rfl fun _ => rfl
      have extendedNamed : Extends before { before with own } :=
        { Extends.refl before with }
      exact
        ⟨(extended.trans extendedNamed).trans (Extends.of_write orderedNamed (by decide) _),
          orderedNamed.write _ _⟩
  | @employ before _ hosted _ inductionHypothesis =>
      obtain ⟨extended, orderedBefore⟩ := inductionHypothesis
      have extendedEmployed : Extends before { before with hosted } :=
        { Extends.refl before with }
      exact ⟨extended.trans extendedEmployed, orderedBefore.of_logs rfl fun _ => rfl⟩
  | @leave before _ _ inductionHypothesis =>
      obtain ⟨extended, orderedBefore⟩ := inductionHypothesis
      have extendedLeft :
          Extends before { before with store := before.store.stop, stopped := true } :=
        { Extends.refl before with
          stays_stopped := fun _ => rfl
          both_stopped := fun _ => rfl }
      exact ⟨extended.trans extendedLeft, orderedBefore.of_logs rfl fun _ => rfl⟩

end MemberList

end Roster
