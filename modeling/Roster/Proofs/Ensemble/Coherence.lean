import Roster.Proofs.Ensemble

/-!
# What stores keep that exchange deltas

Every operation that is anywhere in an ensemble is in the log of the store that
wrote it.  A store changes by operations of its own, or by such as were written
by others before.
-/

namespace Roster.Ensemble

universe u

variable {ι : Type u} {replica : ι → ReplicaId} {ensemble : Ensemble ι} {member : ι}
  {uri : String}

theorem Honest.mono {before after : Ensemble ι} {delta : Bytes}
    (grown : ∀ member, ∀ operation ∈ before.log uri member, operation ∈ after.log uri member)
    (honest : Honest replica before uri delta) : Honest replica after uri delta := by
  obtain ⟨operations, readable, issued⟩ := honest
  exact ⟨operations, readable, fun operation member => (issued operation member).mono grown⟩

/-- All operations anywhere are in the logs of the stores that wrote them. -/
structure Coherent (replica : ι → ReplicaId) (ensemble : Ensemble ι) : Prop where
  replica_eq : ∀ member, (ensemble.stores member).replica = replica member
  authored : ∀ uri, Document.Authored replica (ensemble.log uri)
  waiting_issued : ∀ member uri, ∀ operation ∈ ((ensemble.stores member).document uri).waiting,
    Issued replica ensemble uri operation
  sent_honest : ∀ update ∈ ensemble.sent, Honest replica ensemble update.uri update.delta
  batches_honest : ∀ batch ∈ ensemble.batches, ∀ entry ∈ batch.entries,
    Honest replica ensemble entry.1 entry.2

/-- A store comes from another by operations of its own and by such as were
issued. -/
structure Grows (replica : ι → ReplicaId) (ensemble : Ensemble ι) (member : ι) (store : Store) :
    Prop where
  replica_eq : store.replica = replica member
  log_eq : ∀ uri, ∃ more, (store.document uri).applied = ensemble.log uri member ++ more ∧
    ∀ operation ∈ more, operation.replica = replica member ∨
      Issued replica ensemble uri operation
  causal : ∀ uri, Document.Causal (store.document uri).applied
  ascending : ∀ uri, Document.Ascending (replica member) (store.document uri).applied
  waiting_issued : ∀ uri, ∀ operation ∈ (store.document uri).waiting,
    Issued replica ensemble uri operation

/-! ## Changes of one store -/

namespace Coherent

variable (coherent : Coherent replica ensemble)

include coherent

/-- A store whose documents are the same has grown by nothing. -/
private theorem grows_of_documents {store : Store}
    (sameReplica : store.replica = (ensemble.stores member).replica)
    (sameDocuments : ∀ uri, store.document uri = (ensemble.stores member).document uri) :
    Grows replica ensemble member store where
  replica_eq := sameReplica.trans (coherent.replica_eq member)
  log_eq uri := ⟨[], by rw [sameDocuments, List.append_nil]; rfl, by simp⟩
  causal uri := sameDocuments uri ▸ (coherent.authored uri).causal member
  ascending uri := sameDocuments uri ▸ (coherent.authored uri).ascending member
  waiting_issued uri := sameDocuments uri ▸ coherent.waiting_issued member uri

/-- A store of which one document has changed. -/
private theorem grows_of_keep {document : Document} {more : List Operation}
    (grown : document.applied = ensemble.log uri member ++ more)
    (known : ∀ operation ∈ more, operation.replica = replica member ∨
      Issued replica ensemble uri operation)
    (causal : Document.Causal document.applied)
    (ascending : Document.Ascending (replica member) document.applied)
    (waiting : ∀ operation ∈ document.waiting, Issued replica ensemble uri operation) :
    Grows replica ensemble member ((ensemble.stores member).keep uri document) where
  replica_eq := coherent.replica_eq member
  log_eq tested := by
    rw [Store.document_keep]
    split
    · rename_i here
      exact here ▸ ⟨more, grown, known⟩
    · exact ⟨[], (List.append_nil _).symm, by simp⟩
  causal tested := by
    rw [Store.document_keep]
    split
    · exact causal
    · exact (coherent.authored tested).causal member
  ascending tested := by
    rw [Store.document_keep]
    split
    · exact ascending
    · exact (coherent.authored tested).ascending member
  waiting_issued tested := by
    rw [Store.document_keep]
    split
    · rename_i here
      exact here ▸ waiting
    · exact coherent.waiting_issued member tested

theorem grows_of_write (member : ι) (uri : String) (edits : List Edit) :
    Grows replica ensemble member ((ensemble.stores member).write uri edits).2 := by
  have own := coherent.replica_eq member
  obtain ⟨more, grown, stems⟩ :=
    Document.applied_write ((ensemble.stores member).document uri)
      (ensemble.stores member).replica uri edits
  refine coherent.grows_of_keep grown (fun operation added => ?_) ?_ ?_ ?_
  · exact Or.inl ((stems operation added).replica_eq.trans own)
  · exact Document.causal_write ((coherent.authored uri).causal member) _ _ _
  · rw [own]
    exact Document.ascending_write ((coherent.authored uri).ascending member) _ _
  · rw [Document.waiting_write]
    exact coherent.waiting_issued member uri

private theorem grows_of_receive (distinct : Function.Injective replica) (member : ι)
    {operations : List Operation}
    (issued : ∀ operation ∈ operations, Issued replica ensemble uri operation) :
    Grows replica ensemble member
      ((ensemble.stores member).keep uri
        (((ensemble.stores member).document uri).receive operations)) := by
  obtain ⟨more, grown, taken, left⟩ :=
    Document.applied_receive ((ensemble.stores member).document uri) operations
  have causal :=
    Document.causal_receive ((coherent.authored uri).causal member) operations
  have known : ∀ operation ∈ more, Issued replica ensemble uri operation := fun operation added =>
    (taken operation added).elim (coherent.waiting_issued member uri operation)
      (issued operation)
  have foreign : ∀ operation ∈ more, operation.replica ≠ replica member := by
    have causalGrown : Document.Causal (ensemble.log uri member ++ more) := grown ▸ causal
    exact Document.Authored.foreign_of_written distinct causalGrown known
  refine
    coherent.grows_of_keep grown (fun operation added => Or.inr (known operation added)) causal
      ?_ fun operation waited => ?_
  · rw [grown]
    exact ((coherent.authored uri).ascending member).append_foreign foreign
  · exact
      (left operation waited).elim (coherent.waiting_issued member uri operation)
        (issued operation)

end Coherent

/-! ## Steps -/

theorem merge_stopped {store : Store} (stopped : store.stopped = true) (batch : Batch) :
    (store.merge batch).2 = store := by
  unfold Store.merge
  cases batch.entries with
  | nil => rfl
  | cons entry rest => simp [Store.receiveAll, Store.receive, stopped]

variable [DecidableEq ι]

theorem Grows.log_subset {store : Store} (grows : Grows replica ensemble member store)
    (uri : String) (other : ι) :
    ∀ operation ∈ ensemble.log uri other,
      operation ∈ (ensemble.put member store).log uri other := by
  intro operation held
  by_cases here : other = member
  · subst here
    obtain ⟨more, grown, _⟩ := grows.log_eq uri
    rw [log, stores_put_self, grown]
    exact List.mem_append_left _ held
  · rwa [log, stores_put, if_neg here]

theorem Coherent.put {store : Store} (coherent : Coherent replica ensemble)
    (grows : Grows replica ensemble member store) :
    Coherent replica (ensemble.put member store) where
  replica_eq other := by
    rw [stores_put]
    split
    · rename_i here
      exact here ▸ grows.replica_eq
    · exact coherent.replica_eq other
  authored uri := by
    obtain ⟨more, grown, known⟩ := grows.log_eq uri
    have here : (ensemble.put member store).log uri member = (store.document uri).applied := by
      rw [log, stores_put_self]
    refine
      (coherent.authored uri).grow (fun other elsewhere => ?_) (here.trans grown)
        (here ▸ grows.causal uri) (here ▸ grows.ascending uri) known
    rw [log, stores_put, if_neg elsewhere]
    rfl
  waiting_issued other uri operation waited := by
    rw [stores_put] at waited
    split at waited
    · exact (grows.waiting_issued uri operation waited).mono (grows.log_subset uri)
    · exact (coherent.waiting_issued other uri operation waited).mono (grows.log_subset uri)
  sent_honest update passed := (coherent.sent_honest update passed).mono (grows.log_subset _)
  batches_honest batch made entry inside :=
    (coherent.batches_honest batch made entry inside).mono (grows.log_subset _)

/-- A running or stopped store edits; its delta is of operations of its own. -/
theorem Coherent.edit (coherent : Coherent replica ensemble) (member : ι) (uri : String)
    (edits : List Edit) : Coherent replica (ensemble.edit member uri edits) := by
  unfold Ensemble.edit Store.edit
  cases stopped : (ensemble.stores member).stopped with
  | true =>
      simp only [if_true, put_stores_self]
      exact coherent
  | false =>
      have written := coherent.put (coherent.grows_of_write member uri edits)
      obtain ⟨more, grown, stems⟩ :=
        Document.applied_write ((ensemble.stores member).document uri)
          (ensemble.stores member).replica uri edits
      have made := Store.write_fst ((coherent.authored uri).causal member) grown
      have held : ∀ operation ∈ more,
          Issued replica (ensemble.put member ((ensemble.stores member).write uri edits).2) uri
            operation := by
        intro operation added
        refine ⟨member, (stems operation added).replica_eq.trans (coherent.replica_eq member), ?_⟩
        rw [log, stores_put_self]
        change operation ∈ (Store.document (Store.keep _ uri _) uri).applied
        rw [Store.document_keep_self, grown]
        exact List.mem_append_right _ added
      simp only [Bool.false_eq_true, if_false, made]
      split
      · rename_i update store same
        split at same
        · cases same
        · cases same
          refine { written with sent_honest := fun update passed => ?_ }
          rcases List.mem_cons.mp passed with rfl | before
          · exact ⟨more, Delta.ofBytes?_toBytes more, held⟩
          · exact written.sent_honest update before
      · rename_i result store _ same
        cases same
        exact written

/-- Imports of issued operations, one after the other. -/
theorem Coherent.imports (distinct : Function.Injective replica)
    {admitted : String → Operation → Prop} {before after : Store}
    (imports : Store.Imports admitted before after) :
    ∀ {ensemble : Ensemble ι}, Coherent replica ensemble → ensemble.stores member = before →
      (∀ uri operation, admitted uri operation → Issued replica ensemble uri operation) →
        Coherent replica (ensemble.put member after) := by
  induction imports with
  | refl store =>
      rintro ensemble coherent rfl _
      rwa [put_stores_self]
  | receive admits _ inductionHypothesis =>
      rintro ensemble coherent rfl issued
      have grows :=
        coherent.grows_of_receive distinct member fun operation inside =>
          issued _ operation (admits operation inside)
      have later :=
        inductionHypothesis (coherent.put grows) (stores_put_self _ _ _)
          fun uri operation allowed => (issued uri operation allowed).mono (grows.log_subset uri)
      rwa [put_put] at later

theorem Coherent.step (coherent : Coherent replica ensemble)
    (distinct : Function.Injective replica) {after : Ensemble ι} (step : Step ensemble after) :
    Coherent replica after := by
  cases step with
  | edit member uri edits => exact coherent.edit member uri edits
  | stop member => exact coherent.put (coherent.grows_of_documents rfl fun _ => rfl)
  | offer member digest =>
      unfold offer
      split
      · rename_i batch made
        refine { coherent with batches_honest := fun other among entry inside => ?_ }
        rcases List.mem_cons.mp among with rfl | before
        · obtain ⟨operations, readable, held⟩ := Store.mem_of_since made inside
          exact
            ⟨operations, readable, fun operation within =>
              (coherent.authored entry.1).written member operation (held operation within)⟩
        · exact coherent.batches_honest other before entry inside
      · exact coherent
  | @receive update target passed =>
      cases stopped : (ensemble.stores target).stopped with
      | true =>
          have same : ((ensemble.stores target).receive update).2 = ensemble.stores target := by
            simp [Store.receive, stopped]
          rwa [same, put_stores_self]
      | false =>
          obtain ⟨operations, readable, issued⟩ := coherent.sent_honest update passed
          rw [show update = { uri := update.uri, delta := update.delta } from rfl,
            Store.receive_eq stopped readable]
          exact coherent.put (coherent.grows_of_receive distinct target issued)
  | @merge batch target among =>
      cases stopped : (ensemble.stores target).stopped with
      | true => rwa [merge_stopped stopped, put_stores_self]
      | false =>
          obtain ⟨uris, store, merged, imports, _⟩ :=
            Store.receiveAll_eq stopped (fun uri => (coherent.authored uri).causal target)
              (coherent.batches_honest batch among)
          have sameStore : ((ensemble.stores target).merge batch).2 = store :=
            congrArg Prod.snd merged
          rw [sameStore]
          exact Coherent.imports distinct imports coherent rfl fun _ _ issued => issued

theorem coherent_of_reachable (distinct : Function.Injective replica)
    (reachable : Reachable replica ensemble) : Coherent replica ensemble := by
  induction reachable with
  | refl =>
      refine
        { replica_eq := fun _ => rfl
          authored := fun uri => ⟨fun _ => .nil, fun _ => List.Pairwise.nil, ?_⟩
          waiting_issued := ?_
          sent_honest := fun _ passed => absurd passed List.not_mem_nil
          batches_honest := fun _ made => absurd made List.not_mem_nil }
      · exact fun _ _ held => absurd held List.not_mem_nil
      · exact fun _ _ _ waited => absurd waited List.not_mem_nil
  | tail _ step coherent => exact coherent.step distinct step

end Roster.Ensemble
