import Roster.Proofs.Federation.Attribution
import Roster.Proofs.MemberList.Presence

/-!
# Presence

Every list that runs reports itself, with its tags, and the landscape has
exactly the agents it hosts at its endpoint.  Others may delete its entries at
any time, but only it puts any under its own endpoints, so a merge can do no
more than take entries away, and the repair after it puts them back.
-/

namespace Roster.Federation

universe u

variable {ι : Type u} {founders : ι → Founder} {federation after : Federation ι}

def HostsApart (founders : ι → Founder) : Prop :=
  ∀ left right, (founders left).own.sameHost (founders right).own = true → left = right

/-- The founders are on different hosts, all with numeric addresses. -/
structure DistinctHosts (founders : ι → Founder) : Prop where
  numeric : ∀ member, (founders member).own.HasNumericAddress
  apart : ∀ left right, (founders left).own.sameHost (founders right).own = true → left = right

namespace AllAscribed

variable {member author : ι} {name : Endpoint}

private theorem name_home (ascribed : AllAscribed founders federation)
    (known : name ∈ federation.names member) :
    name.sameHost (founders member).own = true := by
  have home := (ascribed member).home
  have descending := (ascribed member).attributed.descending
  obtain ⟨earlier, first⟩ := (ascribed member).named
  rw [first] at known descending
  rcases List.mem_cons.mp known with here | older
  · rwa [here]
  · have superseded := (List.pairwise_cons.mp descending).1 name older
    exact Endpoint.sameHost_trans
      (Endpoint.sameHost_symm (Endpoint.supersedes_iff.mp superseded).1) home

/-- A list has not had an endpoint later than its own. -/
theorem not_known_of_supersedes (ascribed : AllAscribed founders federation)
    (supersedes : name.supersedes (federation.lists member).own = true) :
    name ∉ federation.names member := by
  intro known
  have descending := (ascribed member).attributed.descending
  obtain ⟨earlier, first⟩ := (ascribed member).named
  rw [first] at known descending
  rcases List.mem_cons.mp known with here | older
  · exact Endpoint.ne_of_supersedes supersedes here
  · have superseded := (List.pairwise_cons.mp descending).1 name older
    exact Endpoint.ne_of_supersedes (Endpoint.supersedes_trans supersedes superseded) rfl

theorem name_numeric (ascribed : AllAscribed founders federation)
    (hosts : DistinctHosts founders) (known : name ∈ federation.names member) :
    name.HasNumericAddress :=
  (hosts.numeric member).of_sameHost (ascribed.name_home known)

/-- The host of an endpoint tells whose it is. -/
theorem eq_of_name (ascribed : AllAscribed founders federation)
    (apart : HostsApart founders) (known : name ∈ federation.names author)
    (here : name.sameHost (founders member).own = true) :
    author = member :=
  apart author member
    (Endpoint.sameHost_trans (Endpoint.sameHost_symm (ascribed.name_home known)) here)

/-- The key of every member is read back. -/
theorem readable (ascribed : AllAscribed founders federation)
    (coherent : Coherent founders federation) (hosts : DistinctHosts founders) {key : String}
    (contained :
      ((federation.lists member).store.entries membershipUri).contains key = true) :
    ∃ name : Endpoint, name.ReadsBack ∧ key = name.key := by
  obtain ⟨value, found⟩ := SortedMap.contains_iff.mp contained
  obtain ⟨put, held, _, putKey, putValue⟩ := Document.exists_put_of_get?_entriesOf found
  obtain ⟨author, name, known, _, _, named, _⟩ :=
    ascribed.exists_name coherent held (by rw [putValue]; rfl)
  exact ⟨name, (ascribed.name_numeric hosts known).readsBack, putKey.symm.trans named⟩

/-- A put of the key of an endpoint of a list's host is the list's own. -/
theorem own_of_announced (ascribed : AllAscribed founders federation)
    (coherent : Coherent founders federation) (apart : HostsApart founders)
    {operation : Operation} {endpoint : Endpoint}
    (home : endpoint.sameHost (founders member).own = true)
    (held : operation ∈ (federation.lists author).log membershipUri)
    (put : operation.value.isSome = true) (key : operation.key = endpoint.key) :
    operation.replica = (federation.lists member).store.replica := by
  obtain ⟨writer, name, known, own, _, named, _⟩ := ascribed.exists_name coherent held put
  obtain rfl := Endpoint.key_injective (named.symm.trans key)
  have sameWriter := ascribed.eq_of_name apart known home
  rwa [← sameWriter]

/-- A hosting entry at an endpoint of a list's host is the list's own. -/
private theorem own_of_placed (ascribed : AllAscribed founders federation)
    (coherent : Coherent founders federation) (hosts : DistinctHosts founders)
    {operation : Operation} {agent : String} {endpoint : Endpoint}
    (home : endpoint.sameHost (founders member).own = true)
    (held : operation ∈ (federation.lists author).log hostingUri)
    (put : operation.value.isSome = true)
    (key : operation.key = MemberList.hostingKey agent endpoint) :
    endpoint ∈ federation.names member ∧
      operation.replica = (federation.lists member).store.replica ∧
        operation.value = some endpoint.key := by
  obtain ⟨writer, writtenAgent, name, known, own, named, value⟩ :=
    ascribed.exists_placed coherent held put
  have numeric := (hosts.numeric member).of_sameHost home
  have sameKeys := named.symm.trans key
  obtain ⟨_, rfl⟩ :=
    MemberList.hostingKey_injective (ascribed.name_numeric hosts known) numeric sameKeys
  have sameWriter := ascribed.eq_of_name hosts.apart known home
  subst sameWriter
  exact ⟨known, own, value⟩

end AllAscribed

/-! ## After a merge -/

/-- No agent is hosted by a later endpoint of a list's host than its own. -/
private theorem AllAscribed.hosting_eq_none {target : ι} {later : Endpoint}
    (ascribed : AllAscribed founders federation) (coherent : Coherent founders federation)
    (hosts : DistinctHosts founders)
    (supersedes : later.supersedes (federation.lists target).own = true) (agent : String) :
    ((federation.lists target).store.entries hostingUri).get?
      (MemberList.hostingKey agent later) = none := by
  have home := (ascribed target).home
  rw [Option.eq_none_iff_forall_ne_some]
  intro value found
  obtain ⟨put, held, _, putKey, putValue⟩ := Document.exists_put_of_get?_entriesOf found
  have laterHome :=
    Endpoint.sameHost_trans (Endpoint.supersedes_iff.mp supersedes).1 home
  obtain ⟨known, _⟩ :=
    ascribed.own_of_placed coherent hosts laterHome held (by rw [putValue]; rfl) putKey
  exact ascribed.not_known_of_supersedes supersedes known

/-- A merge leaves a settled list in a state that the repair can mend. -/
private theorem mendable_of_absorbs {target : ι} {before : MemberList} {store : Store}
    (ascribed : AllAscribed founders federation) (coherent : Coherent founders federation)
    (hosts : DistinctHosts founders)
    (imported : federation.lists target = { before with store })
    (absorbs : before.Absorbs store) (settled : before.Settled) :
    (federation.lists target).Mendable := by
  have home := (ascribed target).home
  have appended :
      ∀ uri, ∃ more, (federation.lists target).log uri = before.log uri ++ more ∧
        ∀ operation ∈ more, operation ∈ (federation.lists target).log uri ∧
          operation.replica ≠ (federation.lists target).store.replica := by
    intro uri
    obtain ⟨more, log, foreign⟩ := absorbs.log_eq uri
    rw [imported]
    refine ⟨more, log, ?_⟩
    intro operation added
    refine ⟨?_, absorbs.replica_eq ▸ foreign operation added⟩
    rw [MemberList.log, log]
    exact List.mem_append_right _ added
  have sameOwn : (federation.lists target).own = before.own := by
    rw [imported]
  have sameTags : (federation.lists target).tags = before.tags := by
    rw [imported]
  have sameHosted : (federation.lists target).hosted = before.hosted := by
    rw [imported]
  constructor
  · obtain ⟨more, log, foreign⟩ := appended membershipUri
    have kept := settled.present
    rw [← sameOwn, ← sameTags, MemberList.entries_eq] at kept
    rw [MemberList.entries_eq, log, ← kept]
    apply Document.get?_entriesOf_append
    intro operation added _ key
    obtain ⟨held, foreign⟩ := foreign operation added
    by_contra put
    exact foreign
      (ascribed.own_of_announced coherent hosts.apart home held (Option.isSome_iff_ne_none.mpr put)
        key)
  · exact fun key contained => ascribed.readable coherent hosts contained
  · intro agent
    obtain ⟨more, log, foreign⟩ := appended hostingUri
    have kept := settled.hosting agent
    rw [← sameOwn, ← sameHosted, MemberList.entries_eq] at kept
    rw [MemberList.entries_eq, log, ← kept]
    apply Document.get?_entriesOf_append
    intro operation added _ key
    obtain ⟨held, foreign⟩ := foreign operation added
    by_contra put
    exact foreign
      (ascribed.own_of_placed coherent hosts home held (Option.isSome_iff_ne_none.mpr put)
        key).2.1
  · exact fun later supersedes agent => ascribed.hosting_eq_none coherent hosts supersedes agent

variable [DecidableEq ι]

theorem Repaired.ascribed {target : ι} {store : Store} {list : MemberList}
    (repaired : Repaired founders federation target store list)
    (ascribed : AllAscribed founders federation) :
    AllAscribed founders
      (federation.put target { federation.lists target with store }) := by
  intro member
  by_cases here : member = target
  · subst here
    rw [lists_put_self, names_put_self, MemberList.renamed_self]
    exact
      { attributed := (ascribed member).attributed.absorb repaired.absorbs
        named := (ascribed member).named
        home := (ascribed member).home }
  · rw [lists_put_of_ne _ _ here, names_put_of_ne _ _ here]
    exact ascribed member

theorem Repaired.settled {target : ι} {store : Store} {list : MemberList}
    (repaired : Repaired founders federation target store list)
    (ascribed : AllAscribed founders federation) (hosts : DistinctHosts founders)
    (settled : (federation.lists target).Settled) :
    list.Settled := by
  have between :
      (federation.put target { federation.lists target with store }).lists target =
        { federation.lists target with store } :=
    lists_put_self _ _ _
  have mendable :=
    mendable_of_absorbs (repaired.ascribed ascribed) repaired.coherent hosts between
      repaired.absorbs settled
  rw [between] at mendable
  obtain ⟨offered, changed, made, unmoved, mended⟩ := repaired.repaired
  cases changed with
  | true => exact mendable.settled_of_repair mended
  | false =>
      have sameEntries :
          ∀ uri, store.entries uri = (federation.lists target).store.entries uri := by
        intro uri
        rw [Store.entries, Document.entries_eq, unmoved rfl uri]
        rfl
      rw [MemberList.repair_unchanged mended]
      constructor
      · rw [sameEntries]
        exact settled.present
      · intro agent
        rw [sameEntries]
        exact settled.hosting agent

/-! ## Every run -/

/-- A list that runs after a change is settled, if it was before. -/
theorem Change.settled {member : ι} {list : MemberList}
    (change : Change founders federation member list)
    (ascribed : AllAscribed founders federation) (hosts : DistinctHosts founders)
    (settled : (federation.lists member).stopped = false → (federation.lists member).Settled)
    (running : list.stopped = false) :
    list.Settled := by
  cases change with
  | unchanged => exact settled running
  | host agent =>
      rw [MemberList.stopped_host] at running
      exact (settled running).host agent
  | stopHosting agent =>
      rw [MemberList.stopped_stopHosting] at running
      exact (settled running).stopHosting agent
  | remove endpoint =>
      rw [MemberList.stopped_remove] at running
      exact (settled running).remove endpoint
  | stop =>
      rw [MemberList.stopped_stop] at running
      cases running
  | drain => exact ⟨(settled running).present, (settled running).hosting⟩
  | imported repaired =>
      exact repaired.settled ascribed hosts (settled repaired.running)

theorem settled_of_reachable (distinct : DistinctReplicas founders)
    (hosts : DistinctHosts founders) (reachable : Reachable founders federation) (member : ι)
    (running : (federation.lists member).stopped = false) :
    (federation.lists member).Settled := by
  induction reachable with
  | refl => exact MemberList.settled_new _ _ _
  | tail earlier step inductionHypothesis =>
      have coherent := coherent_of_reachable distinct earlier
      have ascribed := ascribed_of_reachable distinct earlier
      obtain ⟨changed, list, change, sameLists, _⟩ := step.change coherent distinct
      rw [sameLists] at running ⊢
      by_cases here : member = changed
      · subst here
        rw [lists_put_self] at running ⊢
        exact change.settled ascribed hosts inductionHypothesis running
      · rw [lists_put_of_ne _ _ here] at running ⊢
        exact inductionHypothesis running

/-- Every list that runs is one of its own members, with its tags, and the
landscape has an agent at its endpoint exactly if the list hosts the agent. -/
theorem own_endpoint_present (distinct : DistinctReplicas founders)
    (hosts : DistinctHosts founders) (reachable : Reachable founders federation) {member : ι}
    (running : (federation.lists member).stopped = false) :
    (federation.lists member).members.get? (federation.lists member).own =
        some (founders member).tags ∧
      ∀ agent, (federation.lists member).landscape.Hosts agent (federation.lists member).own ↔
        (federation.lists member).hosted.contains agent = true := by
  have coherent := coherent_of_reachable distinct reachable
  have ascribed := ascribed_of_reachable distinct reachable
  have settled := settled_of_reachable distinct hosts reachable member running
  have home := (ascribed member).home
  have readsBack := ((hosts.numeric member).of_sameHost home).readsBack
  have present :
      (federation.lists member).members.get? (federation.lists member).own =
        some (founders member).tags := by
    rw [MemberList.get?_members settled.present readsBack, Tags.ofText_toText,
      coherent.tags_eq member]
    intro other contained read
    obtain ⟨name, nameReadsBack, rfl⟩ := ascribed.readable coherent hosts contained
    have same : some name = some (federation.lists member).own := nameReadsBack.symm.trans read
    rw [Option.some.inj same]
  refine ⟨present, ?_⟩
  intro agent
  rw [MemberList.hosts_landscape_iff]
  have hosting := settled.hosting agent
  constructor
  · rintro ⟨_, value, found, read⟩
    obtain ⟨put, held, _, putKey, putValue⟩ := Document.exists_put_of_get?_entriesOf found
    obtain ⟨author, _, name, known, _, _, written⟩ :=
      ascribed.exists_placed coherent held (by rw [putValue]; rfl)
    have sameValue : value = name.key := Option.some.inj (putValue.symm.trans written)
    have nameReadsBack := (ascribed.name_numeric hosts known).readsBack
    have sameName : some name = some (federation.lists member).own := by
      rw [← nameReadsBack, ← sameValue, read]
    rw [sameValue, Option.some.inj sameName] at found
    by_contra absent
    rw [if_neg absent] at hosting
    exact absurd (found.symm.trans hosting) (by simp)
  · intro hosted
    rw [if_pos hosted] at hosting
    exact
      ⟨SortedMap.contains_iff.mpr ⟨_, present⟩, (federation.lists member).own.key, hosting,
        readsBack⟩

theorem distinctHosts_pair : DistinctHosts pair where
  numeric := by decide +kernel
  apart := by decide

def returned : Federation Bool :=
  (evicted.drain true).deliverAll false 9

private theorem reachable_returned : Reachable pair returned :=
  (reachable_evicted.tail (Step.drain true)).trans (leads_deliverAll _ _ _)

theorem own_endpoint_present_returned :
    DistinctReplicas pair ∧ DistinctHosts pair ∧ Reachable pair returned ∧
      (returned.lists false).stopped = false ∧
        (returned.lists false).members.get? (returned.lists false).own =
            some (pair false).tags ∧
          ∀ agent, (returned.lists false).landscape.Hosts agent (returned.lists false).own ↔
            (returned.lists false).hosted.contains agent = true := by
  have running : (returned.lists false).stopped = false := by
    decide +kernel
  exact
    ⟨distinctReplicas_pair, distinctHosts_pair, reachable_returned, running,
      own_endpoint_present distinctReplicas_pair distinctHosts_pair reachable_returned running⟩

end Roster.Federation
