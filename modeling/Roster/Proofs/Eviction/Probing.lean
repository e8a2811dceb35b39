import Roster.Proofs.Detector.Announcement
import Roster.Proofs.Detector.Rounds
import Roster.Proofs.Eviction
import Roster.Proofs.Eviction.Tick
import Roster.Proofs.Rotation

/-!
# Whom the eviction loop probes

A round that is due goes to the first of those suspects that wait for a probe, if it is
a member and can be dialled, and else to the pick of the rotation.  The suspect is a
member when the round starts.  The pick was one before the tick, but the rotation has
not heard of the verdicts of the same tick.
-/

namespace Roster

/-! ## Suspects that wait for a probe -/

namespace Detector

variable {detector : Detector} {endpoint first : Endpoint}

/-- The endpoint is suspected, was not probed since, and is not being probed. -/
def Awaits (detector : Detector) (endpoint : Endpoint) : Prop :=
  ∃ suspicion, detector.suspicions.get? endpoint = some suspicion ∧
    suspicion.probedAt = none ∧ detector.isProbing endpoint = false

instance (detector : Detector) (endpoint : Endpoint) : Decidable (detector.Awaits endpoint) :=
  decidable_of_iff
    ((detector.suspicions.get? endpoint).any fun suspicion =>
      suspicion.probedAt.isNone && !detector.isProbing endpoint)
    (by
      rw [Option.any_eq_true, Awaits]
      exact exists_congr fun suspicion => by simp)

/-- The endpoint is the first in order that waits for a probe. -/
def AwaitsFirst (detector : Detector) (first : Endpoint) : Prop :=
  detector.Awaits first ∧
    ∀ other, detector.Awaits other → other = first ∨ compare first other = .lt

theorem nextSuspect_eq_some_iff :
    detector.nextSuspect = some first ↔ detector.AwaitsFirst first := by
  have waits (tested : Endpoint) :
      (detector.suspicions.filter fun target suspicion =>
          suspicion.probedAt.isNone && !detector.isProbing target).contains tested = true ↔
        detector.Awaits tested := by
    rw [SortedMap.contains_iff, Awaits]
    refine exists_congr fun suspicion => ?_
    rw [SortedMap.get?_filter, Option.filter_eq_some_iff]
    simp
  rw [nextSuspect, SortedMap.head?_keys_eq_some_iff, AwaitsFirst]
  simp only [waits]

private theorem exists_awaitsFirst (awaits : detector.Awaits endpoint) :
    ∃ first, detector.AwaitsFirst first := by
  cases next : detector.nextSuspect with
  | some first => exact ⟨first, nextSuspect_eq_some_iff.mp next⟩
  | none =>
      obtain ⟨suspicion, found, unprobed, idle⟩ := awaits
      have none := List.head?_eq_none_iff.mp next
      have among :
          endpoint ∈
            (detector.suspicions.filter fun target suspicion =>
              suspicion.probedAt.isNone && !detector.isProbing target).keys := by
        rw [SortedMap.mem_keys_iff, SortedMap.contains_iff]
        refine ⟨suspicion, ?_⟩
        rw [SortedMap.get?_filter, found]
        simp [unprobed, idle]
      rw [none] at among
      cases among

end Detector

namespace Eviction

variable {eviction judged after : Eviction} {list middle listAfter : MemberList}
  {rotation rotationAfter : Rotation} {now : Nat} {finding : Finding} {findings : List Finding}
  {actions told asked more : List EvictionAction} {target first : Endpoint}
  {address : SocketAddress} {sequence : UInt64}

/-! ## What settling leaves -/

/-- Keys of members are dropped, and the endpoints that they belong to are told of. -/
structure Drops (list : MemberList) (actions : List EvictionAction) (after : MemberList) :
    Prop where
  own_eq : after.own = list.own
  older : ∀ {key value}, (after.store.entries membershipUri).get? key = some value →
    (list.store.entries membershipUri).get? key = some value
  kept : ∀ {key value}, (list.store.entries membershipUri).get? key = some value →
    (after.store.entries membershipUri).get? key = some value ∨
      ∃ gone : Endpoint, .dropped gone ∈ actions ∧ gone.key = key

theorem Drops.none (list : MemberList) (actions : List EvictionAction) :
    Drops list actions list :=
  ⟨rfl, id, Or.inl⟩

theorem Drops.withdraw (list : MemberList) (gone : Endpoint) :
    Drops list (if list.contains gone then [.dropped gone] else []) (list.withdraw gone).2 where
  own_eq := MemberList.own_withdraw gone
  older {key value} found := by
    rw [MemberList.get?_membership_withdraw] at found
    split at found
    · cases found
    · exact found
  kept {key value} found := by
    by_cases here : key = gone.key
    · subst here
      have present : list.contains gone = true := SortedMap.contains_iff.mpr ⟨value, found⟩
      rw [if_pos present]
      exact Or.inr ⟨gone, List.mem_singleton_self _, rfl⟩
    · refine Or.inl ?_
      rwa [MemberList.get?_membership_withdraw, if_neg here]

theorem Drops.trans (former : Drops list told middle) (latter : Drops middle more listAfter) :
    Drops list (told ++ more) listAfter where
  own_eq := latter.own_eq.trans former.own_eq
  older found := former.older (latter.older found)
  kept found := by
    rcases former.kept found with between | ⟨gone, dropped, named⟩
    · rcases latter.kept between with still | ⟨gone, dropped, named⟩
      · exact Or.inl still
      · exact Or.inr ⟨gone, List.mem_append_right _ dropped, named⟩
    · exact Or.inr ⟨gone, List.mem_append_left _ dropped, named⟩

theorem Drops.legible (drops : Drops list actions listAfter) (legible : list.Legible) :
    listAfter.Legible := by
  intro key contained
  obtain ⟨value, found⟩ := SortedMap.contains_iff.mp contained
  exact legible key (SortedMap.contains_iff.mpr ⟨value, drops.older found⟩)

private theorem drops_handleOne (eviction : Eviction) (list : MemberList) (finding : Finding) :
    Drops list (eviction.handleOne list finding).1 (eviction.handleOne list finding).2.2 := by
  by_cases dead : ∃ target, finding = .dead target
  · obtain ⟨target, rfl⟩ := dead
    cases running : list.stopped with
    | true =>
        have refused : list.remove target = (.error .stopped, list) := by
          rw [MemberList.remove, MemberList.whileRunning, if_pos running]
        rw [handleOne, refused]
        exact .none list []
    | false =>
        by_cases own : target = list.own
        · rw [own, handleOne_dead_own running]
          exact .none list []
        · rw [handleOne_dead_of_ne running own]
          exact .withdraw list target
  · rw [(handleOne_of_not_dead eviction list fun target same => dead ⟨target, same⟩).1]
    exact .none list _

private theorem drops_handle (findings : List Finding) (eviction : Eviction) (list : MemberList) :
    Drops list (handle findings eviction list).1 (handle findings eviction list).2.2 := by
  induction findings generalizing eviction list with
  | nil => exact .none list []
  | cons finding rest inductionHypothesis =>
      exact (drops_handleOne eviction list finding).trans (inductionHypothesis _ _)

/-- Findings start no round. -/
private theorem probe_not_mem_handleOne (eviction : Eviction) (list : MemberList)
    (finding : Finding) :
    .probe sequence target address ∉ (eviction.handleOne list finding).1 := by
  cases finding with
  | dead gone =>
      unfold handleOne
      simp only
      split
      · split <;> simp
      · exact List.not_mem_nil
  | suspected other | confirmed other =>
      simp only [handleOne, announce]
      split <;> simp
  | _ => simp [handleOne]

private theorem probe_not_mem_handle (findings : List Finding) (eviction : Eviction)
    (list : MemberList) :
    .probe sequence target address ∉ (handle findings eviction list).1 := by
  induction findings generalizing eviction list with
  | nil => exact List.not_mem_nil
  | cons finding rest inductionHypothesis =>
      intro among
      rcases List.mem_append.mp among with here | later
      · exact probe_not_mem_handleOne eviction list finding here
      · exact inductionHypothesis _ _ later

private theorem unsuspected_handleOne (finding : Finding)
    (unsuspected : eviction.detector.isSuspected target = false) :
    (eviction.handleOne list finding).2.1.detector.isSuspected target = false := by
  rcases handleOne_detector eviction list finding with same | ⟨gone, same⟩
  · rwa [same]
  · rw [same]
    exact
      Detector.not_suspected_of_filter (fun tested _ => compare tested gone != .eq) unsuspected rfl

private theorem unsuspected_handle (findings : List Finding)
    (unsuspected : eviction.detector.isSuspected target = false) :
    (handle findings eviction list).2.1.detector.isSuspected target = false := by
  induction findings generalizing eviction list with
  | nil => exact unsuspected
  | cons finding rest inductionHypothesis =>
      exact inductionHypothesis (unsuspected_handleOne finding unsuspected)

/-! ## The choice of a round -/

private theorem awaitsFirst_of_nextSuspect
    (chosen : judged.nextSuspect list = some (target, address)) :
    judged.detector.AwaitsFirst target ∧ target.socketAddress? = some address ∧
      list.contains target = true := by
  unfold nextSuspect at chosen
  obtain ⟨first, next, chosen⟩ := Option.bind_eq_some_iff.mp chosen
  obtain ⟨dialled, resolved, chosen⟩ := Option.bind_eq_some_iff.mp chosen
  split at chosen
  · rename_i member
    cases chosen
    exact ⟨Detector.nextSuspect_eq_some_iff.mp next, resolved, member⟩
  · cases chosen

private theorem nextSuspect_of_awaitsFirst (awaits : judged.detector.AwaitsFirst first)
    (resolved : first.socketAddress? = some address) (member : list.contains first = true) :
    judged.nextSuspect list = some (first, address) := by
  rw [nextSuspect, Detector.nextSuspect_eq_some_iff.mpr awaits, Option.bind_eq_bind,
    Option.bind_some, resolved, Option.bind_eq_bind, Option.bind_some, if_pos member]

private theorem chooseTarget_of_nextSuspect (rotation : Rotation)
    (next : judged.nextSuspect list = some (target, address)) :
    judged.chooseTarget list rotation = (some (target, address), rotation) := by
  rw [chooseTarget, next]

/-- Who is chosen is the first suspect that waits, or the pick of the rotation if that
suspect cannot be probed. -/
private theorem chooseTarget_eq_some {turned : Rotation}
    (chosen : judged.chooseTarget list rotation = (some (target, address), turned)) :
    judged.nextSuspect list = some (target, address) ∨
      judged.nextSuspect list = none ∧
        (rotation.select 1 [list.own]).1.head? = some (target, address) := by
  unfold chooseTarget at chosen
  split at chosen
  · rename_i next
    cases chosen
    exact Or.inl next
  · rename_i nobody
    exact Or.inr ⟨nobody, congrArg Prod.fst chosen⟩

private theorem drops_settle (settled : eviction.settle now list = .ok (told, judged, listAfter)) :
    Drops list told listAfter := by
  obtain ⟨findings, detector, _, handled⟩ := settle_eq_ok settled
  have drops := drops_handle findings { eviction with detector } list
  rwa [handled] at drops

private theorem unsuspected_settle
    (settled : eviction.settle now list = .ok (told, judged, listAfter))
    (unsuspected : eviction.detector.isSuspected eviction.detector.own = false) :
    judged.detector.isSuspected eviction.detector.own = false := by
  obtain ⟨findings, detector, checked, handled⟩ := settle_eq_ok settled
  have operated :
      eviction.detector.operate (.checkTimeouts now) = .ok (findings, detector) :=
    checked
  have still :
      ({ eviction with detector } : Eviction).detector.isSuspected eviction.detector.own = false :=
    Detector.own_unsuspected operated unsuspected
  have kept :
      (handle findings { eviction with detector } list).2.1.detector.isSuspected
          eviction.detector.own =
        false :=
    unsuspected_handle findings still
  rwa [handled] at kept

/-- Only the round of a tick probes anybody. -/
theorem probe_of_tick (running : eviction.running = true)
    (ticked : eviction.tick now list rotation = .ok (actions, after, listAfter, rotationAfter))
    (probed : .probe sequence target address ∈ actions) :
    ∃ told judged, eviction.settle now list = .ok (told, judged, listAfter) ∧
      actions = told ++ [.probe sequence target address] ∧
      judged.chooseTarget listAfter rotation = (some (target, address), rotationAfter) := by
  obtain ⟨told, judged, asked, settled, round, rfl⟩ := tick_eq_ok running ticked
  have asks : .probe sequence target address ∈ asked := by
    refine (List.mem_append.mp probed).resolve_left fun early => ?_
    obtain ⟨findings, detector, _, handled⟩ := settle_eq_ok settled
    have silent :
        .probe sequence target address ∉ (handle findings { eviction with detector } list).1 :=
      probe_not_mem_handle findings _ list
    rw [handled] at silent
    exact silent early
  cases round with
  | early | alone => cases asks
  | probe due chosen started =>
      cases List.mem_singleton.mp asks
      exact ⟨told, judged, settled, rfl, chosen⟩

private theorem hasNumericAddress_of_socketAddress?
    (resolved : target.socketAddress? = some address) :
    target.HasNumericAddress := by
  obtain ⟨ip, read, _⟩ := Option.map_eq_some_iff.mp resolved
  exact Option.isSome_iff_exists.mpr ⟨ip, read⟩

/-- Whoever is probed can be dialled and was a member before the tick.  It is a member
after the tick as well, unless the rotation has picked it and the same tick has dropped
it.  The own endpoint is not probed, which the detector does not suspect. -/
theorem probed_was_member (running : eviction.running = true)
    (follows : ∀ endpoint,
      endpoint ∈ rotation.members ↔ list.members.contains endpoint = true)
    (ticked : eviction.tick now list rotation = .ok (actions, after, listAfter, rotationAfter))
    (probed : .probe sequence target address ∈ actions) :
    target.socketAddress? = some address ∧
      list.members.contains target = true ∧
      (listAfter.members.contains target = true ∨
        (rotation.select 1 [list.own]).1.head? = some (target, address) ∧
          ∃ gone, .dropped gone ∈ actions ∧ Endpoint.ofKey? gone.key = some target) ∧
      listAfter.own = list.own ∧
      (eviction.detector.own = list.own → eviction.detector.isSuspected list.own = false →
        target ≠ list.own) := by
  obtain ⟨told, judged, settled, rfl, chosen⟩ := probe_of_tick running ticked probed
  have drops := drops_settle settled
  rcases chooseTarget_eq_some chosen with next | ⟨_, picked⟩
  · obtain ⟨awaits, resolved, member⟩ := awaitsFirst_of_nextSuspect next
    obtain ⟨value, found⟩ := SortedMap.contains_iff.mp member
    have readsBack := (hasNumericAddress_of_socketAddress? resolved).readsBack
    refine
      ⟨resolved, MemberList.contains_members_of_entry (drops.older found) readsBack,
        Or.inl (MemberList.contains_members_of_entry found readsBack), drops.own_eq, ?_⟩
    rintro sameOwn unsuspected rfl
    obtain ⟨⟨suspicion, suspected, _⟩, _⟩ := awaits
    rw [← sameOwn] at unsuspected suspected
    have kept := unsuspected_settle settled unsuspected
    rw [Detector.isSuspected_of_get? suspected] at kept
    cases kept
  · rw [drops.own_eq] at picked
    obtain ⟨known, foreign, resolved⟩ :=
      Rotation.mem_of_pick _ _ _ _ (List.mem_of_head? picked)
    have foreign : target ≠ list.own := by simpa using foreign
    have member := (follows target).mp known
    refine ⟨resolved, member, ?_, drops.own_eq, fun _ _ => foreign⟩
    obtain ⟨key, value, found, read⟩ := MemberList.exists_entry_of_contains_members member
    rcases drops.kept found with still | ⟨gone, dropped, rfl⟩
    · exact Or.inl (MemberList.contains_members_of_entry still read)
    · exact Or.inr ⟨picked, gone, List.mem_append_left _ dropped, read⟩

/-! A member is dropped in the tick that starts a round, and the rotation has not yet
heard of it. -/

def bystander : Endpoint :=
  ⟨"127.0.0.1", 7002, 5⟩

def reported : Suspicion where
  startedAt := 0
  lastHeard := 0
  incarnation := 5
  suspectors := SortedSet.add SortedMap.empty bystander
  deadline := 5000
  probedAt := none

def suspecting (targets : List Endpoint) : Eviction where
  detector :=
    { Detector.new ⟨1000, 500, 3, 4, 6, 8⟩ host with
      suspicions := SortedMap.ofList (targets.map fun target => (target, reported)) }
  running := true

def passing (ahead : List Endpoint) : Rotation where
  ahead
  chance := { source := fun _ => 0 }

/-- Where both incarnations of the restarted host are dialled. -/
def restartedAddress : SocketAddress where
  ip := .v4 0x7F000001
  port := 7001

private theorem legible_acquainted : acquainted.Legible := by
  intro key contained
  obtain ⟨member, numeric, same⟩ := written_acquainted key contained
  exact ⟨member, numeric.readsBack, same⟩

private theorem follows_acquainted (endpoint : Endpoint) :
    endpoint ∈ (passing [stale, restarted, host]).members ↔
      acquainted.members.contains endpoint = true := by
  rw [legible_acquainted.contains_members, MemberList.contains, SortedMap.contains_iff]
  simp only [acquainted, MemberList.new, MemberList.announce]
  rw [MemberList.entries_write_of_ne (by decide), MemberList.get?_entries_write_singleton,
    MemberList.get?_entries_write_singleton, MemberList.get?_entries_write_singleton]
  have others :
      (({ own := host, tags := SortedMap.empty, store := { replica := ⟨1⟩ } } : MemberList).store.entries
          membershipUri).get? endpoint.key =
        none :=
    rfl
  rw [others]
  simp only [Edit.key, Edit.value, Endpoint.key_injective.eq_iff]
  have members : (passing [stale, restarted, host]).members = [stale, restarted, host] := rfl
  rw [members]
  split_ifs with isRestarted isStale isHost
  · simp [isRestarted]
  · simp [isStale]
  · simp [isHost]
  · simp [isRestarted, isStale, isHost]

private theorem tick_due :
    ((suspecting [stale]).tick 5000 acquainted (passing [stale, restarted, host])).map
        (fun (actions, _, listAfter, _) => (actions, listAfter.contains stale)) =
      .ok ([.dropped stale, .probe 1 stale restartedAddress], false) := by
  decide +kernel

theorem probed_was_member_due :
    (suspecting [stale]).running = true ∧
      (∀ endpoint, endpoint ∈ (passing [stale, restarted, host]).members ↔
        acquainted.members.contains endpoint = true) ∧
      ∃ after listAfter rotationAfter,
        (suspecting [stale]).tick 5000 acquainted (passing [stale, restarted, host]) =
            .ok ([.dropped stale, .probe 1 stale restartedAddress], after, listAfter,
              rotationAfter) ∧
          acquainted.members.contains stale = true ∧ stale ≠ acquainted.own := by
  have sameOwn : (suspecting [stale]).detector.own = acquainted.own := by decide +kernel
  have unsuspected : (suspecting [stale]).detector.isSuspected acquainted.own = false := by
    decide +kernel
  obtain ⟨⟨actions, after, listAfter, rotationAfter⟩, ticked, same⟩ :=
    Attempt.map_eq_ok tick_due
  obtain ⟨rfl, _⟩ := Prod.mk.inj same
  obtain ⟨_, member, _, _, foreign⟩ :=
    probed_was_member rfl follows_acquainted ticked
      (List.mem_cons_of_mem _ (List.mem_singleton_self _))
  exact
    ⟨rfl, follows_acquainted, after, listAfter, rotationAfter, ticked, member,
      foreign sameOwn unsuspected⟩

/-- The probe of a round goes to an endpoint that the same tick has dropped. -/
theorem dropped_member_is_probed :
    (suspecting [stale]).running = true ∧
      (∀ endpoint, endpoint ∈ (passing [stale, restarted, host]).members ↔
        acquainted.members.contains endpoint = true) ∧
      ∃ after listAfter rotationAfter,
        (suspecting [stale]).tick 5000 acquainted (passing [stale, restarted, host]) =
            .ok ([.dropped stale, .probe 1 stale restartedAddress], after, listAfter,
              rotationAfter) ∧
          listAfter.members.contains stale = false := by
  obtain ⟨⟨actions, after, listAfter, rotationAfter⟩, ticked, same⟩ :=
    Attempt.map_eq_ok tick_due
  obtain ⟨rfl, absent⟩ := Prod.mk.inj same
  obtain ⟨told, judged, settled, _⟩ :=
    probe_of_tick rfl ticked (List.mem_cons_of_mem _ (List.mem_singleton_self _))
  have legible := (drops_settle settled).legible legible_acquainted
  refine ⟨rfl, follows_acquainted, after, listAfter, rotationAfter, ticked, ?_⟩
  rw [legible.contains_members]
  exact absent

/-! ## Who is probed first -/

/-- The suspect that waits first is probed first if it is a member and can be dialled;
if not, the rotation picks, whoever else waits.  So if all who wait are members and can
be dialled, one of them is probed. -/
theorem first_suspect_probed (running : eviction.running = true)
    (settled : eviction.settle now list = .ok (told, judged, listAfter))
    (due : judged.detector.shouldProbe now = true)
    (ticked :
      eviction.tick now list rotation = .ok (actions, after, listAfter, rotationAfter)) :
    (∀ first address, judged.detector.AwaitsFirst first → listAfter.contains first = true →
        first.socketAddress? = some address →
          ∃ sequence, actions = told ++ [.probe sequence first address]) ∧
      ((∀ first, judged.detector.AwaitsFirst first →
          listAfter.contains first = false ∨ first.socketAddress? = none) →
        ∀ sequence target address, .probe sequence target address ∈ actions →
          (rotation.select 1 [listAfter.own]).1.head? = some (target, address)) ∧
        ((∃ waiting, judged.detector.Awaits waiting) →
          (∀ waiting, judged.detector.Awaits waiting →
            listAfter.contains waiting = true ∧ waiting.socketAddress?.isSome = true) →
          ∃ sequence target address, actions = told ++ [.probe sequence target address] ∧
            judged.detector.Awaits target) := by
  have probes (first : Endpoint) (address : SocketAddress)
      (awaits : judged.detector.AwaitsFirst first) (member : listAfter.contains first = true)
      (resolved : first.socketAddress? = some address) :
      ∃ sequence, actions = told ++ [.probe sequence first address] := by
    obtain ⟨_, _, asked, settledToo, round, rfl⟩ := tick_eq_ok running ticked
    cases settled.symm.trans settledToo
    have goesFirst := chooseTarget_of_nextSuspect rotation
      (nextSuspect_of_awaitsFirst awaits resolved member)
    cases round with
    | early undue =>
        rw [due] at undue
        cases undue
    | alone _ chosen => cases goesFirst.symm.trans chosen
    | probe _ chosen started =>
        cases goesFirst.symm.trans chosen
        exact ⟨_, rfl⟩
  refine ⟨probes, ?_, ?_⟩
  · intro unfit sequence target address probed
    obtain ⟨other, same, settledToo, _, chosen⟩ := probe_of_tick running ticked probed
    cases settled.symm.trans settledToo
    rcases chooseTarget_eq_some chosen with next | ⟨_, picked⟩
    · obtain ⟨awaits, resolved, member⟩ := awaitsFirst_of_nextSuspect next
      rcases unfit target awaits with absent | unresolved
      · rw [member] at absent
        cases absent
      · rw [resolved] at unresolved
        cases unresolved
    · exact picked
  · rintro ⟨waiting, awaits⟩ fit
    obtain ⟨first, awaitsFirst⟩ := Detector.exists_awaitsFirst awaits
    obtain ⟨member, dialled⟩ := fit first awaitsFirst.1
    obtain ⟨address, resolved⟩ := Option.isSome_iff_exists.mp dialled
    obtain ⟨sequence, same⟩ := probes first address awaitsFirst member resolved
    exact ⟨sequence, first, address, same, awaitsFirst.1⟩

/-! One suspect that waits is a member that cannot be dialled, and another one can. -/

def nameless : Endpoint :=
  ⟨"0.example", 7009, 5⟩

def crowded : MemberList :=
  (acquainted.write membershipUri [.put nameless.key ""]).2

private theorem settle_waiting :
    ((suspecting [restarted]).settle 1000 acquainted).map
        (fun (told, judged, listAfter) =>
          (told, judged.detector.shouldProbe 1000, judged.detector.nextSuspect,
            listAfter.contains restarted)) =
      .ok ([], true, some restarted, true) := by
  decide +kernel

private theorem tick_waiting :
    ((suspecting [restarted]).tick 1000 acquainted (passing [stale, restarted, host])).map
        (fun (actions, _) => actions) =
      .ok [.probe 1 restarted restartedAddress] := by
  decide +kernel

theorem first_suspect_probed_waiting :
    (suspecting [restarted]).running = true ∧
      ∃ judged listAfter actions after rotationAfter,
        (suspecting [restarted]).settle 1000 acquainted = .ok ([], judged, listAfter) ∧
          judged.detector.shouldProbe 1000 = true ∧
          (suspecting [restarted]).tick 1000 acquainted (passing [stale, restarted, host]) =
            .ok (actions, after, listAfter, rotationAfter) ∧
          ∃ sequence, actions = [.probe sequence restarted restartedAddress] := by
  obtain ⟨⟨told, judged, kept⟩, settled, same⟩ := Attempt.map_eq_ok settle_waiting
  simp only [Prod.mk.injEq] at same
  obtain ⟨rfl, due, next, member⟩ := same
  obtain ⟨⟨actions, after, listAfter, rotationAfter⟩, ticked, _⟩ :=
    Attempt.map_eq_ok tick_waiting
  obtain ⟨_, _, _, settledToo, _⟩ := tick_eq_ok rfl ticked
  cases settled.symm.trans settledToo
  have waits := Detector.nextSuspect_eq_some_iff.mp next
  have resolved : restarted.socketAddress? = some restartedAddress := by decide +kernel
  have probed :=
    (first_suspect_probed rfl settled due ticked).1 restarted restartedAddress waits member resolved
  exact
    ⟨rfl, judged, kept, actions, after, rotationAfter, settled, due, ticked, probed⟩

private theorem settle_passed_over :
    ((suspecting [nameless, restarted]).settle 1000 crowded).map
        (fun (told, judged, listAfter) =>
          (told, judged.detector.shouldProbe 1000, decide (judged.detector.Awaits restarted),
            decide (judged.detector.Awaits stale), listAfter.contains restarted)) =
      .ok ([], true, true, false, true) := by
  decide +kernel

private theorem tick_passed_over :
    ((suspecting [nameless, restarted]).tick 1000 crowded
          (passing [nameless, stale, restarted, host])).map
        (fun (actions, _) => actions) =
      .ok [.probe 1 stale restartedAddress] := by
  decide +kernel

/-- A suspect waits that is a member and can be dialled, and the rotation's pick is
probed, whom nobody suspects. -/
theorem waiting_suspect_is_passed_over :
    (suspecting [nameless, restarted]).running = true ∧
      ∃ judged listAfter after rotationAfter,
        (suspecting [nameless, restarted]).settle 1000 crowded = .ok ([], judged, listAfter) ∧
          judged.detector.shouldProbe 1000 = true ∧ judged.detector.Awaits restarted ∧
          listAfter.members.contains restarted = true ∧
          restarted.socketAddress? = some restartedAddress ∧
          ¬ judged.detector.Awaits stale ∧
          (suspecting [nameless, restarted]).tick 1000 crowded
              (passing [nameless, stale, restarted, host]) =
            .ok ([.probe 1 stale restartedAddress], after, listAfter, rotationAfter) := by
  obtain ⟨⟨told, judged, kept⟩, settled, same⟩ := Attempt.map_eq_ok settle_passed_over
  simp only [Prod.mk.injEq, decide_eq_true_eq, decide_eq_false_iff_not] at same
  obtain ⟨rfl, due, awaits, idle, member⟩ := same
  obtain ⟨⟨actions, after, listAfter, rotationAfter⟩, ticked, rfl⟩ :=
    Attempt.map_eq_ok tick_passed_over
  obtain ⟨_, _, _, settledToo, _⟩ := tick_eq_ok rfl ticked
  cases settled.symm.trans settledToo
  obtain ⟨value, found⟩ := SortedMap.contains_iff.mp member
  have readsBack : restarted.ReadsBack := by decide +kernel
  exact
    ⟨rfl, judged, kept, after, rotationAfter, settled, due, awaits,
      MemberList.contains_members_of_entry found readsBack, by decide +kernel, idle, ticked⟩

end Eviction

end Roster
