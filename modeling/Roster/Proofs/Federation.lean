import Mathlib.Logic.Function.Basic
import Mathlib.Logic.Relation
import Roster.Proofs.MemberList.Import

/-!
# Federations of member lists

Any number of lists edit their own copies and exchange what they write.  What a
list drains from its outbox, and every batch that it makes, may reach any list
at any time, in any order, more than once or not at all.  A run is a series of
such steps; where an incarnation would overflow nothing happens.
-/

namespace Roster

universe u

structure Founder where
  own : Endpoint
  tags : Tags
  replica : ReplicaId

/-- The lists and what has passed between them. -/
structure Federation (ι : Type u) where
  lists : ι → MemberList
  /-- The endpoints that each list has had, the latest first. -/
  names : ι → List Endpoint
  /-- Every delta that was drained, with the list that wrote it. -/
  sent : List (ι × Update)
  /-- Every batch that was made. -/
  batches : List Batch
  /-- Every delta that was delivered, with the list that it reached. -/
  reached : List (ι × Update)

namespace Federation

variable {ι : Type u}

def start (founders : ι → Founder) : Federation ι where
  lists member :=
    MemberList.new (founders member).own (founders member).tags (founders member).replica
  names member := [(founders member).own]
  sent := []
  batches := []
  reached := []

/-! ## Issued operations -/

def Issued (federation : Federation ι) (uri : String) (operation : Operation) : Prop :=
  ∃ author, operation.replica = (federation.lists author).store.replica ∧
    operation ∈ (federation.lists author).log uri

/-- The bytes are a delta of issued operations. -/
def Honest (federation : Federation ι) (uri : String) (delta : Bytes) : Prop :=
  ∃ operations, Delta.ofBytes? delta = some operations ∧
    ∀ operation ∈ operations, federation.Issued uri operation

/-- Each list of a federation holds what it held in another. -/
def Outgrows (after before : Federation ι) : Prop :=
  ∀ member, (after.lists member).store.replica = (before.lists member).store.replica ∧
    ∀ uri, ∀ operation ∈ (before.lists member).log uri,
      operation ∈ (after.lists member).log uri

theorem Issued.mono {before after : Federation ι} {uri : String} {operation : Operation}
    (outgrows : after.Outgrows before) (issued : before.Issued uri operation) :
    after.Issued uri operation := by
  obtain ⟨author, own, member⟩ := issued
  obtain ⟨sameReplica, kept⟩ := outgrows author
  exact ⟨author, own.trans sameReplica.symm, kept uri operation member⟩

theorem Honest.mono {before after : Federation ι} {uri : String} {delta : Bytes}
    (outgrows : after.Outgrows before) (honest : before.Honest uri delta) :
    after.Honest uri delta := by
  obtain ⟨operations, readable, issued⟩ := honest
  exact ⟨operations, readable, fun operation member => (issued operation member).mono outgrows⟩

/-! ## Runs -/

variable [DecidableEq ι]

def put (federation : Federation ι) (member : ι) (list : MemberList) : Federation ι :=
  { federation with
    lists := Function.update federation.lists member list
    names :=
      Function.update federation.names member
        (MemberList.renamed (federation.names member) (federation.lists member).own list.own) }

def drain (federation : Federation ι) (member : ι) : Federation ι :=
  let (updates, list) := (federation.lists member).takeOutbox
  { federation.put member list with
    sent := federation.sent ++ updates.map fun update => (member, update) }

def offer (federation : Federation ι) (member : ι) (digest : Digest) : Federation ι :=
  match (federation.lists member).since digest with
  | .ok batch => { federation with batches := batch :: federation.batches }
  | .error _ => federation

/-- A delta reaches a list, unless an incarnation would overflow. -/
def deliver (federation : Federation ι) (target : ι) (offered : UInt64) (update : Update) :
    Federation ι :=
  match (federation.lists target).receive offered update with
  | .ok (_, list) =>
      { federation.put target list with reached := (target, update) :: federation.reached }
  | .error _ => federation

/-- A batch reaches a list, unless an incarnation would overflow. -/
def merge (federation : Federation ι) (target : ι) (offered : UInt64) (batch : Batch) :
    Federation ι :=
  match (federation.lists target).merge offered batch with
  | .ok (_, list) => federation.put target list
  | .error _ => federation

/-- One list does something, or something is exchanged. -/
inductive Step (federation : Federation ι) : Federation ι → Prop
  | host (member : ι) (agent : String) :
      Step federation (federation.put member ((federation.lists member).host agent).2)
  | stopHosting (member : ι) (agent : String) :
      Step federation (federation.put member ((federation.lists member).stopHosting agent).2)
  | remove (member : ι) (endpoint : Endpoint) :
      Step federation (federation.put member ((federation.lists member).remove endpoint).2)
  | stop (member : ι) :
      Step federation (federation.put member (federation.lists member).stop)
  | drain (member : ι) : Step federation (federation.drain member)
  | offer (member : ι) (digest : Digest) : Step federation (federation.offer member digest)
  | deliver {source : ι} {update : Update} (target : ι) (offered : UInt64) :
      (source, update) ∈ federation.sent →
        Step federation (federation.deliver target offered update)
  | merge {batch : Batch} (target : ι) (offered : UInt64) :
      batch ∈ federation.batches → Step federation (federation.merge target offered batch)

/-- A step that only passes on what was written. -/
inductive Relay (federation : Federation ι) : Federation ι → Prop
  | drain (member : ι) : Relay federation (federation.drain member)
  | offer (member : ι) (digest : Digest) : Relay federation (federation.offer member digest)
  | deliver {source : ι} {update : Update} (target : ι) (offered : UInt64) :
      (source, update) ∈ federation.sent →
        Relay federation (federation.deliver target offered update)
  | merge {batch : Batch} (target : ι) (offered : UInt64) :
      batch ∈ federation.batches → Relay federation (federation.merge target offered batch)

theorem Relay.step {federation after : Federation ι} (relay : Relay federation after) :
    Step federation after := by
  cases relay with
  | drain member => exact Step.drain member
  | offer member digest => exact Step.offer member digest
  | deliver target offered passed => exact Step.deliver target offered passed
  | merge target offered held => exact Step.merge target offered held

def Leads : Federation ι → Federation ι → Prop :=
  Relation.ReflTransGen Step

theorem leads_of_relay {federation after : Federation ι}
    (relayed : Relation.ReflTransGen Relay federation after) :
    Leads federation after := by
  induction relayed with
  | refl => exact Relation.ReflTransGen.refl
  | tail _ last inductionHypothesis => exact inductionHypothesis.tail last.step

/-- What a run from the founders can lead to. -/
def Reachable (founders : ι → Founder) (federation : Federation ι) : Prop :=
  Leads (start founders) federation

/-! ## One list in another state -/

theorem lists_put (federation : Federation ι) (member other : ι) (list : MemberList) :
    (federation.put member list).lists other =
      if other = member then list else federation.lists other :=
  Function.update_apply _ _ _ _

@[simp]
theorem lists_put_self (federation : Federation ι) (member : ι) (list : MemberList) :
    (federation.put member list).lists member = list := by
  rw [lists_put, if_pos rfl]

theorem lists_put_of_ne (federation : Federation ι) {member other : ι} (list : MemberList)
    (different : other ≠ member) :
    (federation.put member list).lists other = federation.lists other := by
  rw [lists_put, if_neg different]

@[simp]
theorem names_put_self (federation : Federation ι) (member : ι) (list : MemberList) :
    (federation.put member list).names member =
      MemberList.renamed (federation.names member) (federation.lists member).own list.own :=
  Function.update_self _ _ _

theorem names_put_of_ne (federation : Federation ι) {member other : ι} (list : MemberList)
    (different : other ≠ member) :
    (federation.put member list).names other = federation.names other :=
  Function.update_of_ne different _ _

@[simp]
theorem put_lists_self (federation : Federation ι) (member : ι) :
    federation.put member (federation.lists member) = federation := by
  simp [put]

/-- A state in between leaves no trace, if the own endpoint stayed the same. -/
theorem put_put (federation : Federation ι) {member : ι} {first : MemberList}
    (second : MemberList) (sameOwn : first.own = (federation.lists member).own) :
    (federation.put member first).put member second = federation.put member second := by
  simp [put, sameOwn]

/-- A list that only imported kept its endpoint. -/
theorem put_store_put (federation : Federation ι) (member : ι) (store : Store)
    (second : MemberList) :
    (federation.put member { federation.lists member with store }).put member second =
      federation.put member second :=
  put_put federation second rfl

theorem outgrows_put {federation : Federation ι} {member : ι} {list : MemberList}
    (sameReplica : list.store.replica = (federation.lists member).store.replica)
    (kept : ∀ uri, ∀ operation ∈ (federation.lists member).log uri, operation ∈ list.log uri) :
    (federation.put member list).Outgrows federation := by
  intro other
  by_cases here : other = member
  · subst here
    rw [lists_put_self]
    exact ⟨sameReplica, kept⟩
  · rw [lists_put_of_ne _ _ here]
    exact ⟨rfl, fun _ _ held => held⟩

theorem outgrows_absorb {federation : Federation ι} {member : ι} {store : Store}
    (absorbs : (federation.lists member).Absorbs store) :
    (federation.put member { federation.lists member with store }).Outgrows federation :=
  outgrows_put absorbs.replica_eq absorbs.log_subset

end Federation

end Roster
