import Roster.Store.Document

/-!
# Stores of replicated maps

A store, the `ReplicaStore` of a host, holds one document for each uri that
was ever named to it.  Local edits give a delta to spread; deltas and batches
of others are imported.  A digest describes all documents by their versions,
and whoever receives it can say what its sender lacks.
-/

namespace Roster

structure Store where
  replica : ReplicaId
  documents : SortedMap String Document := SortedMap.empty
  stopped : Bool := false

namespace Store

inductive Fault where
  | unreadable
  | stopped
  deriving DecidableEq, Repr

/-- The wording of a fault; that of unreadable bytes is not fixed. -/
def Fault.message? : Fault → Option String
  | .unreadable => none
  | .stopped => some "Store is stopped"

def document (store : Store) (uri : String) : Document :=
  (store.documents.get? uri).getD {}

def keep (store : Store) (uri : String) (document : Document) : Store :=
  { store with documents := store.documents.insert uri document }

def stop (store : Store) : Store :=
  { store with stopped := true }

def entries (store : Store) (uri : String) : SortedMap String String :=
  (store.document uri).entries uri

/-- Apply a batch of edits: the delta to spread, if anything changed. -/
def write (store : Store) (uri : String) (edits : List Edit) : Option Update × Store :=
  let before := store.document uri
  let after := before.write store.replica uri edits
  ((after.since? before.version).map fun operations =>
      { uri, delta := Delta.toBytes operations },
    store.keep uri after)

/-- Apply a batch of edits unless the store is stopped. -/
def edit (store : Store) (uri : String) (edits : List Edit) :
    Except Fault (Option Update) × Store :=
  if store.stopped then
    (.error .stopped, store)
  else
    let (update, store) := store.write uri edits
    (.ok update, store)

/-- Import a delta: whether the version of the document advanced. -/
def receive (store : Store) (update : Update) : Except Fault Bool × Store :=
  if store.stopped then
    (.error .stopped, store)
  else
    let before := store.document update.uri
    match Delta.ofBytes? update.delta with
    | none => (.error .unreadable, store.keep update.uri before)
    | some operations =>
        let after := before.receive operations
        (.ok !(before.version.includes after.version), store.keep update.uri after)

/-- Import deltas in turn until one is refused: the uris that changed. -/
def receiveAll : List (String × Bytes) → Store → Except Fault (List String) × Store
  | [], store => (.ok [], store)
  | (uri, delta) :: rest, store =>
      match store.receive { uri, delta } with
      | (.error fault, store) => (.error fault, store)
      | (.ok advanced, store) =>
          let (result, store) := receiveAll rest store
          (result.map fun uris => if advanced then uri :: uris else uris, store)

/-- Import a batch. -/
def merge (store : Store) (batch : Batch) : Except Fault (List String) × Store :=
  receiveAll batch.entries store

def digest (store : Store) : Digest :=
  store.documents.mapValues fun _ document => document.version.toBytes

/-- The version that a digest names for a uri, empty if it names none. -/
def versionIn? (digest : Digest) (uri : String) : Option Version :=
  match digest.get? uri with
  | none => some Version.empty
  | some bytes => Version.ofBytes? bytes

/-- What the sender of a digest lacks. -/
def since (store : Store) (digest : Digest) : Except Fault Batch :=
  if store.documents.keys.all fun uri => (versionIn? digest uri).isSome then
    .ok (store.documents.filterMap fun uri document => do
      let theirs ← versionIn? digest uri
      let operations ← document.since? theirs
      return Delta.toBytes operations)
  else
    .error .unreadable

def full (store : Store) : Except Fault Batch :=
  store.since SortedMap.empty

end Store

end Roster
