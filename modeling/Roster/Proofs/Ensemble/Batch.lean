import Roster.Proofs.Ensemble.Exchange
import Roster.Proofs.Store.Batch
import Roster.Proofs.Store.Settled

/-!
# Batches of edits and their deltas

In an ensemble no operation that waits is ready, and none gets ready by the
edits of a store.  So a store that has the version of another on a document has
its entries after a batch as well, once it has received the delta of the batch.

These entries are those from before with the edits made in turn that changed
something about them.  They differ from what all the edits in turn would have
led to where a batch changes a key and gives it its value back.
-/

namespace Roster

universe u

namespace Store

variable {store : Store}

/-- Nothing that waits in the documents of the store is ready. -/
def Settled (store : Store) : Prop :=
  ∀ uri, (store.document uri).Settled

namespace Settled

theorem keep (settled : store.Settled) (uri : String) {document : Document}
    (kept : document.Settled) : (store.keep uri document).Settled := by
  intro tested
  rw [document_keep]
  split
  · exact kept
  · exact settled tested

theorem receive (settled : store.Settled) (update : Update) :
    (store.receive update).2.Settled := by
  unfold Store.receive
  split
  · exact settled
  · split
    · exact settled.keep update.uri (settled update.uri)
    · exact settled.keep update.uri (Document.settled_receive _ _)

theorem receiveAll :
    ∀ {deltas : List (String × Bytes)} {store : Store}, store.Settled →
      (Store.receiveAll deltas store).2.Settled
  | [], _, settled => settled
  | (uri, delta) :: rest, store, settled => by
      have received := settled.receive { uri, delta }
      unfold Store.receiveAll
      split
      · rename_i refused
        rwa [refused] at received
      · rename_i imported
        rw [imported] at received
        exact received.receiveAll

end Settled

end Store

namespace Ensemble

variable {ι : Type u} {replica : ι → ReplicaId} {ensemble : Ensemble ι} {member other : ι}
  {uri : String}

/-! ## Settled ensembles -/

private theorem Coherent.settled_edit (coherent : Coherent replica ensemble)
    (distinct : Function.Injective replica) (settled : (ensemble.stores member).Settled)
    (uri : String) (edits : List Edit) :
    ((ensemble.stores member).edit uri edits).2.Settled := by
  unfold Store.edit
  split
  · exact settled
  · refine settled.keep uri ?_
    rw [coherent.replica_eq member]
    exact
      (coherent.authored uri).settled_write distinct (settled uri) rfl
        (coherent.waiting_issued member uri) uri edits

private theorem stores_offer (ensemble : Ensemble ι) (member : ι) (digest : Digest) :
    (ensemble.offer member digest).stores = ensemble.stores := by
  unfold offer
  split <;> rfl

section Runs

variable [DecidableEq ι]

private theorem stores_edit (ensemble : Ensemble ι) (member : ι) (uri : String)
    (edits : List Edit) :
    (ensemble.edit member uri edits).stores =
      (ensemble.put member ((ensemble.stores member).edit uri edits).2).stores := by
  unfold Ensemble.edit
  split <;> simp_all [put]

private theorem settled_put (settled : ∀ other, (ensemble.stores other).Settled) {store : Store}
    (changed : store.Settled) (other : ι) :
    ((ensemble.put member store).stores other).Settled := by
  rw [stores_put]
  split
  · exact changed
  · exact settled other

theorem settled_step (coherent : Coherent replica ensemble)
    (distinct : Function.Injective replica) (settled : ∀ other, (ensemble.stores other).Settled)
    {after : Ensemble ι} (step : Step ensemble after) (other : ι) :
    (after.stores other).Settled := by
  cases step with
  | edit member uri edits =>
      rw [stores_edit]
      exact settled_put settled (coherent.settled_edit distinct (settled member) uri edits) other
  | stop member =>
      have kept : (ensemble.stores member).stop.Settled := settled member
      exact settled_put settled kept other
  | offer member digest =>
      rw [stores_offer]
      exact settled other
  | receive target _ => exact settled_put settled ((settled target).receive _) other
  | merge target _ => exact settled_put settled (settled target).receiveAll other

theorem settled_of_reachable (distinct : Function.Injective replica)
    (reachable : Reachable replica ensemble) (member : ι) :
    (ensemble.stores member).Settled := by
  induction reachable generalizing member with
  | refl =>
      intro uri operation waited
      exact absurd waited List.not_mem_nil
  | tail earlier step inductionHypothesis =>
      exact
        settled_step (coherent_of_reachable distinct earlier) distinct inductionHypothesis step
          member

end Runs

/-! ## Stores of one version -/

theorem Coherent.abreast (coherent : Coherent replica ensemble)
    (settled : (ensemble.stores other).Settled)
    (same :
      ((ensemble.stores other).document uri).version =
        ((ensemble.stores member).document uri).version) :
    Document.Abreast replica (ensemble.log uri) member ((ensemble.stores other).document uri) where
  same_version := same
  settled := settled uri
  causal := (coherent.authored uri).causal other
  held_written := (coherent.authored uri).written other
  waiting_written := coherent.waiting_issued other uri

/-- What a batch appends continues the log. -/
private theorem Coherent.continues_write (coherent : Coherent replica ensemble) (member : ι)
    (uri : String)
    (edits : List Edit) :
    ∃ more,
      (((ensemble.stores member).document uri).write (ensemble.stores member).replica uri
            edits).applied =
          ensemble.log uri member ++ more ∧
        Document.Continues replica (ensemble.log uri) member more := by
  have own := coherent.replica_eq member
  obtain ⟨more, grown, stems⟩ :=
    Document.applied_write ((ensemble.stores member).document uri)
      (ensemble.stores member).replica uri edits
  have grows := coherent.grows_of_write member uri edits
  have logged :
      (((ensemble.stores member).write uri edits).2.document uri).applied =
        ensemble.log uri member ++ more := by
    rw [Store.write, Store.document_keep_self, grown]
    rfl
  exact
    ⟨more, grown,
      { own := fun operation added => (stems operation added).replica_eq.trans own
        causal := logged ▸ grows.causal uri
        ascending := logged ▸ grows.ascending uri }⟩

def Peers (left right : Store) : Prop :=
  ∃ (ι : Type) (_ : DecidableEq ι) (replica : ι → ReplicaId) (ensemble : Ensemble ι)
      (member other : ι),
    Function.Injective replica ∧ Reachable replica ensemble ∧
      ensemble.stores member = left ∧ ensemble.stores other = right

/-- A peer of the same version gets the entries that the batch has led to. -/
theorem Peers.entries_receive {store reader : Store} (peers : Peers store reader)
    (running : reader.stopped = false)
    (same : (reader.document uri).version = (store.document uri).version) (edits : List Edit) :
    let (update, after) := store.write uri edits
    (update = none → reader.entries uri = after.entries uri) ∧
      ∀ sent, update = some sent → ∃ readerAfter,
        reader.receive sent = (.ok true, readerAfter) ∧
          readerAfter.entries uri = after.entries uri := by
  obtain ⟨ι, _, replica, ensemble, member, other, distinct, reachable, rfl, rfl⟩ := peers
  have coherent := coherent_of_reachable distinct reachable
  have authored := coherent.authored uri
  have abreast := coherent.abreast (settled_of_reachable distinct reachable other) same
  obtain ⟨more, grown, continues⟩ := coherent.continues_write member uri edits
  have made := Store.write_fst (authored.causal member) grown
  have written :
      ((ensemble.stores member).write uri edits).2.entries uri =
        Document.entriesOf uri (ensemble.log uri member ++ more) := by
    rw [Store.write, Store.entries, Store.document_keep_self, Document.entries_eq, grown]
  simp only [made, written]
  by_cases nothing : more = []
  · refine ⟨fun _ => ?_, fun sent some => ?_⟩
    · rw [nothing, List.append_nil, Store.entries, abreast.same_entries authored distinct]
    · rw [if_pos nothing] at some
      cases some
  · rw [if_neg nothing]
    refine ⟨fun none => absurd none (Option.some_ne_none _), ?_⟩
    rintro sent ⟨⟩
    have received :
        (ensemble.stores other).receive { uri, delta := Delta.toBytes more } =
          (.ok true,
            (ensemble.stores other).keep uri
              (((ensemble.stores other).document uri).receive more)) := by
      rw [Store.receive_eq running (Delta.ofBytes?_toBytes more),
        abreast.not_includes_receive authored distinct continues nothing]
      rfl
    refine ⟨_, received, ?_⟩
    rw [Store.entries, Store.document_keep_self,
      abreast.entries_receive authored distinct continues]

end Ensemble

namespace Store

/-! ## Batches -/

/-- After a batch the edits that changed something about the entries from before have been made
in turn.  A key has another value than all edits in turn would have given it exactly if the batch
changes the key and gives it its value back.  All other maps are as they were, and a peer of the
same version has the same entries once it has received the delta. -/
theorem edit_changing_in_turn {store : Store} (running : store.stopped = false) (uri : String)
    (edits : List Edit) :
    ∃ update after, store.edit uri edits = (.ok update, after) ∧
      after.entries uri =
          Edit.applyAll (Edit.changing (store.entries uri) edits) (store.entries uri) ∧
      (∀ key,
        (after.entries uri).get? key ≠ (Edit.applyAll edits (store.entries uri)).get? key ↔
          (Edit.applyAll edits (store.entries uri)).get? key = (store.entries uri).get? key ∧
            ∃ edit ∈ edits, edit.key = key ∧ edit.changes (store.entries uri) = true) ∧
      (∀ other, other ≠ uri → after.entries other = store.entries other) ∧
      ∀ reader : Store, Ensemble.Peers store reader → reader.stopped = false →
        (reader.document uri).version = (store.document uri).version →
          (update = none → reader.entries uri = after.entries uri) ∧
            ∀ sent, update = some sent → ∃ readerAfter,
              reader.receive sent = (.ok true, readerAfter) ∧
                readerAfter.entries uri = after.entries uri := by
  have made :
      (store.write uri edits).2.entries uri =
        Edit.applyAll (Edit.changing (store.entries uri) edits) (store.entries uri) := by
    rw [write, entries, document_keep_self, Document.entries_write]
    rfl
  refine ⟨_, _, by rw [edit, running, if_neg (by decide)], made, fun key => ?_, ?_, ?_⟩
  · rw [made]
    exact Edit.get?_applyAll_changing_ne_iff
  · intro other different
    rw [write, entries, document_keep_of_ne _ _ different]
    rfl
  · intro reader peers readerRunning same
    exact peers.entries_receive readerRunning same edits

/-! Two stores, of which one has told the other of its first edit. -/

section Told

def begun : Ensemble Bool :=
  (Ensemble.start Ensemble.pair).edit false "membership" [.put "10.0.0.1:7000#1" "east"]

def told : Ensemble Bool :=
  begun.put true
    (match begun.sent with
    | [] => begun.stores true
    | update :: _ => ((begun.stores true).receive update).2)

private theorem reachable_told : Ensemble.Reachable Ensemble.pair told := by
  have first : Ensemble.Reachable Ensemble.pair begun := .single (.edit false _ _)
  have some : begun.sent ≠ [] := by decide +kernel
  obtain ⟨update, rest, sent⟩ := List.exists_cons_of_ne_nil some
  have received :
      told = begun.put true ((begun.stores true).receive update).2 := by
    rw [told, sent]
  rw [received]
  exact first.tail (.receive true (by rw [sent]; exact List.mem_cons_self))

private theorem peers_told : Ensemble.Peers (told.stores false) (told.stores true) :=
  ⟨Bool, inferInstance, Ensemble.pair, told, false, true, by decide, reachable_told, rfl, rfl⟩

/-- The entry is changed twice, and a second one is put. -/
def corrections : List Edit :=
  [.put "10.0.0.1:7000#1" "west", .put "10.0.0.2:7000#1" "north", .put "10.0.0.1:7000#1" "south"]

theorem edit_changing_in_turn_told :
    (told.stores false).stopped = false ∧ Ensemble.Peers (told.stores false) (told.stores true) ∧
      ∃ sent after readerAfter,
        (told.stores false).edit "membership" corrections = (.ok (some sent), after) ∧
          (told.stores true).receive sent = (.ok true, readerAfter) ∧
            readerAfter.entries "membership" = after.entries "membership" ∧
              ∀ key,
                (after.entries "membership").get? key =
                  (Edit.applyAll corrections
                    ((told.stores false).entries "membership")).get? key := by
  have running : (told.stores false).stopped = false := by decide +kernel
  obtain ⟨update, after, edited, _, differs, _, readers⟩ :=
    edit_changing_in_turn running "membership" corrections
  obtain ⟨_, received⟩ :=
    readers _ peers_told (by decide +kernel) (by decide +kernel)
  have changed :
      ((told.stores false).edit "membership" corrections).1.toOption.any Option.isSome := by
    decide +kernel
  rw [edited] at changed
  obtain ⟨sent, rfl⟩ := Option.isSome_iff_exists.mp changed
  obtain ⟨readerAfter, imported, same⟩ := received sent rfl
  refine ⟨running, peers_told, sent, after, readerAfter, edited, imported, same, fun key => ?_⟩
  by_contra different
  obtain ⟨given, edit, member, rfl, _⟩ := (differs key).mp different
  have moved :
      ∀ edit ∈ corrections,
        (Edit.applyAll corrections ((told.stores false).entries "membership")).get? edit.key ≠
          ((told.stores false).entries "membership").get? edit.key := by
    decide +kernel
  exact moved edit member given

end Told

/-- A key that is put and deleted in one batch stays. -/
theorem put_stays_when_deleted_in_batch :
    ∃ update after,
      ({ replica := ⟨1⟩ } : Store).edit "membership" [.put "k" "v", .delete "k"] =
          (.ok update, after) ∧
        (after.entries "membership").get? "k" = some "v" ∧
          (Edit.applyAll [.put "k" "v", .delete "k"]
            (({ replica := ⟨1⟩ } : Store).entries "membership")).get? "k" = none :=
  ⟨_, _, rfl, by decide +kernel, by decide +kernel⟩

end Store

end Roster
