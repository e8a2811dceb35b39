import Roster.Store.Operation

/-!
# Replicated documents

A document is a set of operations.  An operation that arrives takes effect
once everything its author had seen is there, and waits until then.  The value
of a key is that of its operation of greatest rank, so documents with the same
operations have the same entries, whatever the order of arrival.
-/

namespace Roster

inductive Edit where
  | put (key value : String)
  | delete (key : String)
  deriving DecidableEq, Repr

namespace Edit

def key : Edit → String
  | .put key _ => key
  | .delete key => key

def value : Edit → Option String
  | .put _ value => some value
  | .delete _ => none

/-- The edit differs from what the entries hold. -/
def changes (edit : Edit) (entries : SortedMap String String) : Bool :=
  entries.get? edit.key != edit.value

end Edit

/-- Operations that have taken effect, in order of arrival, and operations
that wait for others. -/
structure Document where
  applied : List Operation := []
  waiting : List Operation := []
  deriving DecidableEq, Inhabited

namespace Document

/-- How many operations of each replica have taken effect. -/
def version (document : Document) : Version :=
  document.applied.foldl (fun version operation => version.advance operation.replica)
    Version.empty

def nextLamport (document : Document) : Nat :=
  document.applied.foldl (fun least operation => max least (operation.lamport + 1)) 0

/-- The operation in force for every key of a map, deletes included. -/
def inForce (document : Document) (map : String) : SortedMap String Operation :=
  document.applied.foldl
    (fun chosen operation =>
      if operation.map = map then
        match chosen.get? operation.key with
        | some other =>
            if operation.outranks other then
              chosen.insert operation.key operation
            else
              chosen
        | none => chosen.insert operation.key operation
      else
        chosen)
    SortedMap.empty

/-- The keys of a map and their values. -/
def entries (document : Document) (map : String) : SortedMap String String :=
  (document.inForce map).filterMap fun _ operation => operation.value

/-- The operation is one of those a version contains. -/
def containedIn (version : Version) (operation : Operation) : Bool :=
  operation.counter < version.count operation.replica

/-- The operation is the next of its replica and its author had seen no more
than a version contains. -/
def readyAt (version : Version) (operation : Operation) : Bool :=
  operation.counter == version.count operation.replica && version.includes operation.needs

/-- Let waiting operations take effect until none is ready. -/
def settle (document : Document) : Document :=
  match found : document.waiting.find? (readyAt document.version) with
  | none => document
  | some operation =>
      have member := List.mem_of_find?_eq_some found
      have _shorter := List.length_erase_of_mem member
      have _positive := List.length_pos_of_mem member
      settle
        { applied := document.applied ++ [operation]
          waiting := document.waiting.erase operation }
termination_by document.waiting.length

/-- Import operations, leaving out what is there already. -/
def receive (document : Document) (delta : List Operation) : Document :=
  let version := document.version
  let fresh :=
    delta.filter fun operation =>
      !containedIn version operation && !document.waiting.contains operation
  settle { document with waiting := document.waiting ++ fresh }

/-- The operations that a peer with a version lacks; nothing if it lacks
none. -/
def since? (document : Document) (theirs : Version) : Option (List Operation) :=
  if theirs.includes document.version then
    none
  else
    some (document.applied.filter fun operation => !containedIn theirs operation)

/-- Append one local operation. -/
def append (document : Document) (author : ReplicaId) (needs : Version) (map : String)
    (edit : Edit) : Document :=
  { document with
    applied :=
      document.applied ++
        [{ replica := author
           counter := document.version.count author
           lamport := document.nextLamport
           needs
           map
           key := edit.key
           value := edit.value }] }

/-- Apply a batch of local edits.  An edit that changes nothing about the
entries from before the batch is dropped, and so is a put of the value that
its key has by then. -/
def write (document : Document) (author : ReplicaId) (map : String)
    (edits : List Edit) : Document :=
  let before := document.entries map
  let needs := document.version
  edits.foldl
    (fun document edit =>
      if edit.changes before &&
          (edit.value.isNone || edit.changes (document.entries map)) then
        document.append author needs map edit
      else
        document)
    document

end Document

end Roster
