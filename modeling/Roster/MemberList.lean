import Roster.Store
import Roster.Tags
import Roster.Arithmetic

/-!
# Member lists

A member list is the `HostMemberList` of one host.  Two replicated maps
describe a cluster.  The membership map holds the key of every member with its
tags; to evict a member is to delete its key.  The hosting map holds one entry
for every agent and every endpoint that hosts it.

A list never accepts its own eviction: if a merge has removed its endpoint it
returns at a later incarnation and hosts its agents there.  Deltas of local
edits collect in an outbox.
-/

namespace Roster

def membershipUri : String :=
  "membership"

def hostingUri : String :=
  "agent-hosts"

/-- Members and their tags. -/
abbrev Members :=
  SortedMap Endpoint Tags

/-- Agents and the members that host them. -/
abbrev Landscape :=
  SortedMap String (SortedSet Endpoint)

structure MemberList where
  own : Endpoint
  tags : Tags
  store : Store
  hosted : SortedSet String := SortedMap.empty
  outbox : List Update := []
  stopped : Bool := false

namespace MemberList

inductive Fault where
  | stopped
  | store (fault : Store.Fault)
  | unknownUri (uri : String)
  deriving DecidableEq, Repr

/-- The wording of a fault; that of unreadable bytes is not fixed. -/
def Fault.message? : Fault → Option String
  | .stopped => some "Member list is stopped"
  | .store fault => fault.message?.map ("Store error: " ++ ·)
  | .unknownUri uri => some ("Unknown store uri: " ++ uri)

/-- What a merge did. -/
structure Outcome where
  changed : Bool
  reincarnated : Option Endpoint := none
  deriving DecidableEq, Repr

/-- Apply edits to one map: whether anything changed. -/
def write (list : MemberList) (uri : String) (edits : List Edit) : Bool × MemberList :=
  if edits.isEmpty then
    (false, list)
  else
    let (update, store) := list.store.write uri edits
    (update.isSome, { list with store, outbox := list.outbox ++ update.toList })

def announce (list : MemberList) : MemberList :=
  (list.write membershipUri [.put list.own.key list.tags.toText]).2

/-- The list of a host that has just started. -/
def new (own : Endpoint) (tags : Tags) (replica : ReplicaId) : MemberList :=
  announce { own, tags, store := { replica } }

/-- The key of an agent's entry at an endpoint. -/
def hostingKey (agent : String) (endpoint : Endpoint) : String :=
  agent ++ "|" ++ endpoint.key

/-- The members and their tags.  A key that names no endpoint is left out. -/
def members (list : MemberList) : Members :=
  SortedMap.ofList
    ((list.store.entries membershipUri).entries.filterMap fun (key, value) =>
      (Endpoint.ofKey? key).map fun endpoint => (endpoint, Tags.ofText value))

def peers (list : MemberList) : List Endpoint :=
  list.members.keys.filter (· ≠ list.own)

def contains (list : MemberList) (endpoint : Endpoint) : Bool :=
  (list.store.entries membershipUri).contains endpoint.key

/-- The agent of a hosting entry: what stands before its value. -/
def agentOf? (key value : String) : Option String :=
  let ending := '|' :: value.toList
  let chars := key.toList
  if ending.isSuffixOf chars then
    some (String.ofList (chars.take (chars.length - ending.length)))
  else
    none

def landscape (list : MemberList) : Landscape :=
  let members := list.members
  (list.store.entries hostingUri).entries.foldl
    (fun landscape (key, value) =>
      match Endpoint.ofKey? value, agentOf? key value with
      | some endpoint, some agent =>
          if members.contains endpoint then
            landscape.insert agent
              (SortedSet.add ((landscape.get? agent).getD SortedMap.empty) endpoint)
          else
            landscape
      | _, _ => landscape)
    SortedMap.empty

/-- Deletes of every hosting entry of an endpoint. -/
def hostingDeletes (list : MemberList) (endpoint : Endpoint) : List Edit :=
  let key := endpoint.key
  (list.store.entries hostingUri).entries.filterMap fun (agentKey, value) =>
    if value = key then some (.delete agentKey) else none

/-- Delete a member and its hosting entries: whether it was a member. -/
def withdraw (list : MemberList) (endpoint : Endpoint) : Bool × MemberList :=
  let (removed, list) := list.write membershipUri [.delete endpoint.key]
  (removed, (list.write hostingUri (list.hostingDeletes endpoint)).2)

/-- Do something unless the list is stopped. -/
def whileRunning {α : Type} (list : MemberList) (act : Except Fault α × MemberList) :
    Except Fault α × MemberList :=
  if list.stopped then (.error .stopped, list) else act

/-- Host an agent at the own endpoint: whether it is new there. -/
def host (list : MemberList) (agent : String) : Except Fault Bool × MemberList :=
  list.whileRunning
    (let list := { list with hosted := list.hosted.add agent }
     let (changed, list) :=
       list.write hostingUri [.put (hostingKey agent list.own) list.own.key]
     (.ok changed, list))

/-- Stop hosting an agent: whether it was hosted. -/
def stopHosting (list : MemberList) (agent : String) : Except Fault Bool × MemberList :=
  list.whileRunning
    (let list := { list with hosted := list.hosted.erase agent }
     let (changed, list) := list.write hostingUri [.delete (hostingKey agent list.own)]
     (.ok changed, list))

/-- Evict a member other than the own endpoint: whether it was one. -/
def remove (list : MemberList) (endpoint : Endpoint) : Except Fault Bool × MemberList :=
  list.whileRunning
    (if endpoint = list.own then
      (.ok false, list)
    else
      let (removed, list) := list.withdraw endpoint
      (.ok removed, list))

/-- Evict every older incarnation of the own host. -/
def withdrawOlder (list : MemberList) : List Endpoint → MemberList
  | [] => list
  | endpoint :: rest => withdrawOlder (list.withdraw endpoint).2 rest

/-- Return under a later incarnation. -/
def reincarnate (list : MemberList) (offered : UInt64) : Except Overflow MemberList := do
  let previous := list.own
  let least ← Word.add previous.incarnation.toNat 1
  let own :=
    previous.atIncarnation (Endpoint.nextIncarnation offered (UInt64.ofNat least))
  let list := announce { list with own }
  return (list.write hostingUri (list.hostingDeletes previous)).2

/-- Put back hosting entries of the own endpoint that are missing. -/
def restoreHosting (list : MemberList) : MemberList :=
  let present := list.store.entries hostingUri
  let missing :=
    (list.hosted.keys.map (hostingKey · list.own)).filter fun key => !present.contains key
  (list.write hostingUri (missing.map (.put · list.own.key))).2

/-- Keep the own endpoint present after a merge. -/
def repair (list : MemberList) (offered : UInt64) (changed : Bool) :
    Except Overflow (Outcome × MemberList) := do
  if !changed then
    return ({ changed }, list)
  let members := list.members
  let list := list.withdrawOlder (members.keys.filter list.own.supersedes)
  if members.contains list.own then
    return ({ changed }, list.restoreHosting)
  else
    let list ← list.reincarnate offered
    return ({ changed, reincarnated := some list.own }, list.restoreHosting)

/-- Go on after an import unless it was refused. -/
def afterImport (list : MemberList) (offered : UInt64) (changed : Except Fault Bool) :
    Except Overflow (Except Fault Outcome × MemberList) := do
  match changed with
  | .error fault => return (.error fault, list)
  | .ok changed =>
      let (outcome, list) ← list.repair offered changed
      return (.ok outcome, list)

def isKnownUri (uri : String) : Bool :=
  uri == membershipUri || uri == hostingUri

/-- Merge a delta.  `offered` is the next incarnation of the clock. -/
def receive (list : MemberList) (offered : UInt64) (update : Update) :
    Except Overflow (Except Fault Outcome × MemberList) :=
  if list.stopped then
    .ok (.error .stopped, list)
  else if !isKnownUri update.uri then
    .ok (.error (.unknownUri update.uri), list)
  else
    let (changed, store) := list.store.receive update
    { list with store }.afterImport offered (changed.mapError .store)

/-- Merge a batch; other maps than the two are skipped. -/
def merge (list : MemberList) (offered : UInt64) (batch : Batch) :
    Except Overflow (Except Fault Outcome × MemberList) :=
  if list.stopped then
    .ok (.error .stopped, list)
  else
    let (changed, store) := list.store.merge (batch.filter fun uri _ => isKnownUri uri)
    { list with store }.afterImport offered
      ((changed.map fun uris : List String => !uris.isEmpty).mapError .store)

def digest (list : MemberList) : Digest :=
  list.store.digest

/-- What the sender of a digest lacks. -/
def since (list : MemberList) (digest : Digest) : Except Fault Batch :=
  (list.store.since digest).mapError .store

def full (list : MemberList) : Except Fault Batch :=
  list.store.full.mapError .store

def takeOutbox (list : MemberList) : List Update × MemberList :=
  (list.outbox, { list with outbox := [] })

/-- Leave: withdraw the own endpoint and refuse all further changes.  The
deltas of leaving stay in the outbox. -/
def stop (list : MemberList) : MemberList :=
  if list.stopped then
    list
  else
    let list := (list.withdraw list.own).2
    { list with store := list.store.stop, stopped := true }

end MemberList

end Roster
