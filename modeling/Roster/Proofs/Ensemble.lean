import Mathlib.Logic.Function.Basic
import Mathlib.Logic.Relation
import Roster.Proofs.Store
import Roster.Proofs.Store.Authorship

/-!
# Ensembles of stores

Any number of stores edit their documents.  The delta of every batch of edits,
and every batch that a store makes for some digest, may reach any store at any
time, in any order, more than once or not at all.
-/

namespace Roster

universe u

/-- The stores and what has been made. -/
structure Ensemble (ι : Type u) where
  stores : ι → Store
  /-- The delta of every batch of edits. -/
  sent : List Update
  /-- Every batch that was made for a digest. -/
  batches : List Batch

namespace Ensemble

variable {ι : Type u} {replica : ι → ReplicaId} {ensemble : Ensemble ι} {member : ι}
  {uri : String}

def start (replica : ι → ReplicaId) : Ensemble ι where
  stores member := { replica := replica member }
  sent := []
  batches := []

/-- The operations on a document that have taken effect at a store. -/
def log (ensemble : Ensemble ι) (uri : String) (member : ι) : List Operation :=
  ((ensemble.stores member).document uri).applied

def Issued (replica : ι → ReplicaId) (ensemble : Ensemble ι) (uri : String)
    (operation : Operation) : Prop :=
  Document.Written replica (ensemble.log uri) operation

/-- The bytes are a delta of issued operations. -/
def Honest (replica : ι → ReplicaId) (ensemble : Ensemble ι) (uri : String) (delta : Bytes) :
    Prop :=
  ∃ operations, Delta.ofBytes? delta = some operations ∧
    ∀ operation ∈ operations, Issued replica ensemble uri operation

/-! ## Runs -/

variable [DecidableEq ι]

def put (ensemble : Ensemble ι) (member : ι) (store : Store) : Ensemble ι :=
  { ensemble with stores := Function.update ensemble.stores member store }

/-- A store applies a batch of edits and sends the delta, if it changed
anything. -/
def edit (ensemble : Ensemble ι) (member : ι) (uri : String) (edits : List Edit) :
    Ensemble ι :=
  match (ensemble.stores member).edit uri edits with
  | (.ok (some update), store) =>
      { ensemble.put member store with sent := update :: ensemble.sent }
  | (_, store) => ensemble.put member store

def offer (ensemble : Ensemble ι) (member : ι) (digest : Digest) : Ensemble ι :=
  match (ensemble.stores member).since digest with
  | .ok batch => { ensemble with batches := batch :: ensemble.batches }
  | .error _ => ensemble

inductive Step (ensemble : Ensemble ι) : Ensemble ι → Prop
  | edit (member : ι) (uri : String) (edits : List Edit) :
      Step ensemble (ensemble.edit member uri edits)
  | stop (member : ι) : Step ensemble (ensemble.put member (ensemble.stores member).stop)
  | offer (member : ι) (digest : Digest) : Step ensemble (ensemble.offer member digest)
  | receive {update : Update} (target : ι) :
      update ∈ ensemble.sent →
        Step ensemble (ensemble.put target ((ensemble.stores target).receive update).2)
  | merge {batch : Batch} (target : ι) :
      batch ∈ ensemble.batches →
        Step ensemble (ensemble.put target ((ensemble.stores target).merge batch).2)

/-- What a run from empty stores can lead to. -/
def Reachable (replica : ι → ReplicaId) (ensemble : Ensemble ι) : Prop :=
  Relation.ReflTransGen Step (start replica) ensemble

/-! ## One store in another state -/

theorem stores_put (ensemble : Ensemble ι) (member other : ι) (store : Store) :
    (ensemble.put member store).stores other =
      if other = member then store else ensemble.stores other :=
  Function.update_apply _ _ _ _

@[simp]
theorem stores_put_self (ensemble : Ensemble ι) (member : ι) (store : Store) :
    (ensemble.put member store).stores member = store :=
  Function.update_self _ _ _

@[simp]
theorem put_stores_self (ensemble : Ensemble ι) (member : ι) :
    ensemble.put member (ensemble.stores member) = ensemble := by
  simp [put]

theorem put_put (ensemble : Ensemble ι) (member : ι) (first second : Store) :
    (ensemble.put member first).put member second = ensemble.put member second := by
  simp [put]

end Ensemble

end Roster
