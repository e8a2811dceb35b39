import Roster.Eviction
import Roster.Proofs.MemberList.Removal

/-!
# What the eviction loop evicts

A batch of findings condemns the endpoints that it calls dead, the own one
excepted.  The loop takes them out of the member list one finding after
another: other incarnations of the same host stay, an endpoint that is called
dead twice is reported once, and the detector forgets all that were called dead.
-/

namespace Roster

/-! ## What the detector forgets -/

namespace Detector

structure HasForgotten (detector : Detector) (target : Endpoint) : Prop where
  suspicion : detector.suspicions.get? target = none
  lastHeard : detector.lastHeard.get? target = none
  probe : ∀ sequence probe, detector.probes.get? sequence = some probe → probe.target ≠ target

variable {detector : Detector} {target : Endpoint}

private theorem hasForgotten_forget (detector : Detector) (target : Endpoint) :
    (detector.forget target).HasForgotten target where
  suspicion := by rw [forget, SortedMap.get?_erase, if_pos rfl]
  lastHeard := by rw [forget, SortedMap.get?_erase, if_pos rfl]
  probe := by
    intro sequence probe found
    rw [forget, SortedMap.get?_filter, Option.filter_eq_some_iff] at found
    simpa using found.2

theorem HasForgotten.forget (forgotten : detector.HasForgotten target) (other : Endpoint) :
    (detector.forget other).HasForgotten target where
  suspicion := by
    rw [Detector.forget, SortedMap.get?_erase, forgotten.suspicion, ite_self]
  lastHeard := by
    rw [Detector.forget, SortedMap.get?_erase, forgotten.lastHeard, ite_self]
  probe := by
    intro sequence probe found
    rw [Detector.forget, SortedMap.get?_filter, Option.filter_eq_some_iff] at found
    exact forgotten.probe sequence probe found.1

end Detector

namespace Eviction

variable {eviction : Eviction} {list middle after : MemberList} {finding : Finding}
  {findings : List Finding} {first more : List EvictionAction} {target : Endpoint}
  {gone other : Endpoint → Bool}

/-! ## Evictions -/

/-- The endpoints that findings call dead, the own one excepted. -/
def condemned (findings : List Finding) (own endpoint : Endpoint) : Bool :=
  findings.contains (.dead endpoint) && endpoint != own

/-- The given endpoints are out of the list and of its landscape, and those
that were members are reported once each. -/
structure Evicts (gone : Endpoint → Bool) (list : MemberList)
    (actions : List EvictionAction) (after : MemberList) : Prop where
  own : after.own = list.own
  legible : after.Legible
  members : after.members = list.members.filter fun member _ => !gone member
  hosts : ∀ agent endpoint, after.landscape.Hosts agent endpoint ↔
    list.landscape.Hosts agent endpoint ∧ gone endpoint = false
  dropped : ∀ endpoint, actions.count (.dropped endpoint) =
    if list.members.contains endpoint && gone endpoint then 1 else 0

theorem Evicts.landscape (evicts : Evicts gone list first after) :
    after.landscape = list.landscape.without gone :=
  Landscape.ext_hosts after.inhabited_landscape (Landscape.inhabited_without _ _)
    fun agent endpoint => (evicts.hosts agent endpoint).trans Landscape.hosts_without_iff.symm

theorem Evicts.contains_members (evicts : Evicts gone list first after) (endpoint : Endpoint) :
    after.members.contains endpoint = (list.members.contains endpoint && !gone endpoint) := by
  rw [evicts.members, SortedMap.contains, SortedMap.get?_filter, SortedMap.contains]
  cases list.members.get? endpoint <;> cases gone endpoint <;> simp [Option.filter_some]

theorem Evicts.none (legible : list.Legible) (silent : ∀ endpoint, .dropped endpoint ∉ first) :
    Evicts (fun _ => false) list first list where
  own := rfl
  legible := legible
  members := (SortedMap.filter_true list.members).symm
  hosts := by simp
  dropped := by simpa [List.count_eq_zero] using silent

theorem Evicts.one (legible : list.Legible) (readsBack : target.ReadsBack) :
    Evicts (· == target) list (if list.contains target then [.dropped target] else [])
      (list.withdraw target).2 where
  own := MemberList.own_withdraw target
  legible := legible.withdraw target
  members := by
    simp only [legible.members_withdraw, ne_eq, decide_not]
    rfl
  hosts := by
    intro agent endpoint
    rw [legible.hosts_withdraw_iff readsBack, beq_eq_false_iff_ne]
  dropped := by
    intro endpoint
    by_cases here : endpoint = target
    · subst here
      rw [legible.contains_members]
      cases list.contains endpoint <;> simp
    · cases list.contains target <;> simp [here, Ne.symm here]

/-- What is evicted first is no member any more, and is not reported again. -/
theorem Evicts.trans (former : Evicts gone list first middle)
    (latter : Evicts other middle more after) :
    Evicts (fun endpoint => gone endpoint || other endpoint) list (first ++ more) after where
  own := latter.own.trans former.own
  legible := latter.legible
  members := by
    rw [latter.members, former.members]
    apply SortedMap.ext_get?
    intro member
    simp only [SortedMap.get?_filter, Option.filter_filter, Bool.not_or]
  hosts := by
    intro agent endpoint
    rw [latter.hosts, former.hosts, Bool.or_eq_false_iff, and_assoc]
  dropped := by
    intro endpoint
    rw [List.count_append, former.dropped, latter.dropped, former.contains_members]
    cases list.members.contains endpoint <;> cases gone endpoint <;> simp

/-! ## One finding -/

theorem handleOne_dead_own (running : list.stopped = false) :
    eviction.handleOne list (.dead list.own) = ([], eviction.forget list.own, list) := by
  rw [handleOne, MemberList.remove_own list running]
  rfl

theorem handleOne_dead_of_ne (running : list.stopped = false) (other : target ≠ list.own) :
    eviction.handleOne list (.dead target) =
      (if list.contains target then [.dropped target] else [], eviction.forget target,
        (list.withdraw target).2) := by
  rw [handleOne, MemberList.remove_of_ne running other]

/-- A finding that calls no endpoint dead leaves the list alone. -/
theorem handleOne_of_not_dead (eviction : Eviction) (list : MemberList)
    (notDead : ∀ target, finding ≠ .dead target) :
    (eviction.handleOne list finding).2.2 = list ∧
      ∀ endpoint, .dropped endpoint ∉ (eviction.handleOne list finding).1 := by
  cases finding with
  | dead target => exact absurd rfl (notDead target)
  | suspected target | confirmed target =>
      simp only [handleOne, announce]
      split <;> simp
  | _ => simp [handleOne]

private theorem stopped_handleOne (running : list.stopped = false) (finding : Finding) :
    (eviction.handleOne list finding).2.2.stopped = list.stopped := by
  by_cases dead : ∃ target, finding = .dead target
  · obtain ⟨target, rfl⟩ := dead
    by_cases own : target = list.own
    · rw [own, handleOne_dead_own running]
    · rw [handleOne_dead_of_ne running own]
      exact MemberList.stopped_withdraw target
  · rw [(handleOne_of_not_dead _ _ fun target same => dead ⟨target, same⟩).1]

theorem handleOne_detector (eviction : Eviction) (list : MemberList) (finding : Finding) :
    (eviction.handleOne list finding).2.1 = eviction ∨
      ∃ target, (eviction.handleOne list finding).2.1 = eviction.forget target := by
  cases finding with
  | dead target =>
      unfold handleOne
      simp only
      split
      · exact Or.inr ⟨target, rfl⟩
      · exact Or.inl rfl
  | suspected target | confirmed target =>
      simp only [handleOne, announce]
      split
      · exact Or.inl rfl
      · exact Or.inr ⟨target, rfl⟩
  | _ => exact Or.inl rfl

private theorem hasForgotten_handleOne (forgotten : eviction.detector.HasForgotten target)
    (finding : Finding) :
    (eviction.handleOne list finding).2.1.detector.HasForgotten target := by
  rcases handleOne_detector eviction list finding with same | ⟨other, same⟩
  · rwa [same]
  · rw [same]
    exact forgotten.forget other

private theorem hasForgotten_handleOne_dead (running : list.stopped = false) :
    (eviction.handleOne list (.dead target)).2.1.detector.HasForgotten target := by
  by_cases own : target = list.own
  · subst own
    rw [handleOne_dead_own running]
    exact Detector.hasForgotten_forget _ _
  · rw [handleOne_dead_of_ne running own]
    exact Detector.hasForgotten_forget _ _

/-- One finding evicts what it condemns. -/
private theorem evicts_handleOne (eviction : Eviction) (running : list.stopped = false)
    (legible : list.Legible)
    (named : ∀ target, finding = .dead target → target.ReadsBack) :
    Evicts (condemned [finding] list.own) list (eviction.handleOne list finding).1
      (eviction.handleOne list finding).2.2 := by
  by_cases dead : ∃ target, finding = .dead target
  · obtain ⟨target, rfl⟩ := dead
    by_cases own : target = list.own
    · subst own
      have spared : condemned [.dead list.own] list.own = fun _ => false := by
        funext endpoint
        simp [condemned]
      rw [handleOne_dead_own running, spared]
      exact Evicts.none legible fun _ => List.not_mem_nil
    · have alone : condemned [.dead target] list.own = (· == target) := by
        funext endpoint
        by_cases here : endpoint = target <;> simp [condemned, here, own]
      rw [handleOne_dead_of_ne running own, alone]
      exact Evicts.one legible (named target rfl)
  · have notDead : ∀ target, finding ≠ .dead target := fun target same => dead ⟨target, same⟩
    have none : condemned [finding] list.own = fun _ => false := by
      funext endpoint
      simp [condemned, Ne.symm (notDead endpoint)]
    obtain ⟨same, silent⟩ := handleOne_of_not_dead eviction list notDead
    rw [none, same]
    exact Evicts.none legible silent

/-! ## A batch of findings -/

private theorem condemned_cons (finding : Finding) (rest : List Finding) (own : Endpoint) :
    condemned (finding :: rest) own =
      fun endpoint => condemned [finding] own endpoint || condemned rest own endpoint := by
  funext endpoint
  simp only [condemned, List.contains_cons, List.contains_nil, Bool.or_false,
    Bool.and_or_distrib_right]

/-- A batch evicts what it condemns. -/
private theorem evicts_handle (eviction : Eviction) (running : list.stopped = false)
    (legible : list.Legible)
    (named : ∀ target, .dead target ∈ findings → target.ReadsBack) :
    Evicts (condemned findings list.own) list (handle findings eviction list).1
      (handle findings eviction list).2.2 := by
  induction findings generalizing eviction list with
  | nil => exact Evicts.none legible fun _ => List.not_mem_nil
  | cons finding rest inductionHypothesis =>
      have former := evicts_handleOne eviction running legible
        fun target same => named target (same ▸ List.mem_cons_self)
      have latter := inductionHypothesis (eviction.handleOne list finding).2.1
        ((stopped_handleOne running finding).trans running) former.legible
        fun target member => named target (List.mem_cons_of_mem _ member)
      rw [former.own] at latter
      rw [condemned_cons]
      exact former.trans latter

private theorem hasForgotten_handle (running : list.stopped = false)
    (told : .dead target ∈ findings ∨ eviction.detector.HasForgotten target) :
    (handle findings eviction list).2.1.detector.HasForgotten target := by
  induction findings generalizing eviction list with
  | nil => exact told.resolve_left List.not_mem_nil
  | cons finding rest inductionHypothesis =>
      apply inductionHypothesis ((stopped_handleOne running finding).trans running)
      rcases told with member | forgotten
      · rcases List.mem_cons.mp member with rfl | later
        · exact Or.inr (hasForgotten_handleOne_dead running)
        · exact Or.inl later
      · exact Or.inr (hasForgotten_handleOne forgotten finding)

/-- A batch takes exactly the endpoints that it calls dead out of a running
list, with what they host there, unless one is the own endpoint.  Each that was
a member is reported once, and the detector keeps nothing about any of them. -/
theorem exactly_condemned_evicted {actions : List EvictionAction} {evictionAfter : Eviction}
    (running : list.stopped = false)
    (written : ∀ key, (list.store.entries membershipUri).contains key = true →
      ∃ member : Endpoint, member.HasNumericAddress ∧ key = member.key)
    (named : ∀ target, .dead target ∈ findings → target.HasNumericAddress)
    (handled : handle findings eviction list = (actions, evictionAfter, after)) :
    (after.members = list.members.filter fun member _ => !condemned findings list.own member) ∧
      after.landscape = list.landscape.without (condemned findings list.own) ∧
      (∀ endpoint, actions.count (.dropped endpoint) =
        if list.members.contains endpoint && !after.members.contains endpoint then 1 else 0) ∧
      ∀ target, .dead target ∈ findings → evictionAfter.detector.HasForgotten target := by
  have legible : list.Legible := by
    intro key contained
    obtain ⟨member, numeric, same⟩ := written key contained
    exact ⟨member, numeric.readsBack, same⟩
  have evicts :=
    evicts_handle eviction running legible
      fun target member => (named target member).readsBack
  have forgets : ∀ target, .dead target ∈ findings →
      (handle findings eviction list).2.1.detector.HasForgotten target :=
    fun target member => hasForgotten_handle running (Or.inl member)
  rw [handled] at evicts forgets
  refine ⟨evicts.members, evicts.landscape, fun endpoint => ?_, forgets⟩
  rw [evicts.dropped, evicts.contains_members]
  cases list.members.contains endpoint <;> simp

/-! ## A host that was restarted -/

def host : Endpoint :=
  ⟨"127.0.0.1", 7000, 5⟩

def stale : Endpoint :=
  ⟨"127.0.0.1", 7001, 4⟩

def restarted : Endpoint :=
  ⟨"127.0.0.1", 7001, 5⟩

def acquainted : MemberList :=
  let list := MemberList.new host SortedMap.empty ⟨1⟩
  let list := (list.write membershipUri [.put stale.key ""]).2
  let list := (list.write membershipUri [.put restarted.key ""]).2
  (list.write hostingUri [.put (MemberList.hostingKey "agent" stale) stale.key]).2

def probingStale : Eviction where
  detector :=
    { Detector.new ⟨1000, 500, 3, 4, 6, 8⟩ host with
      probes := SortedMap.ofList
        [(1, { target := stale, directDeadline := 500, roundDeadline := 1000 })]
      lastHeard := SortedMap.ofList [(stale, 0)] }

/-- The former incarnation is called dead twice, and the own endpoint once. -/
def verdicts : List Finding :=
  [.dead stale, .confirmed restarted, .dead host, .dead stale]

theorem written_acquainted (key : String)
    (contained : (acquainted.store.entries membershipUri).contains key = true) :
    ∃ member : Endpoint, member.HasNumericAddress ∧ key = member.key := by
  obtain ⟨value, found⟩ := SortedMap.contains_iff.mp contained
  simp only [acquainted, MemberList.new, MemberList.announce] at found
  rw [MemberList.entries_write_of_ne (by decide), MemberList.get?_entries_write_singleton,
    MemberList.get?_entries_write_singleton, MemberList.get?_entries_write_singleton] at found
  split at found
  · exact ⟨restarted, by decide +kernel, ‹_›⟩
  split at found
  · exact ⟨stale, by decide +kernel, ‹_›⟩
  split at found
  · exact ⟨host, by decide +kernel, ‹_›⟩
  · cases found

theorem exactly_condemned_evicted_restarted :
    acquainted.stopped = false ∧
      (∀ key, (acquainted.store.entries membershipUri).contains key = true →
        ∃ member : Endpoint, member.HasNumericAddress ∧ key = member.key) ∧
      (∀ target, .dead target ∈ verdicts → target.HasNumericAddress) ∧
      let (actions, eviction, after) := handle verdicts probingStale acquainted
      (after.members = acquainted.members.filter fun member _ => !condemned verdicts host member) ∧
        after.landscape = acquainted.landscape.without (condemned verdicts host) ∧
        (∀ endpoint, actions.count (.dropped endpoint) =
          if acquainted.members.contains endpoint && !after.members.contains endpoint
          then 1 else 0) ∧
        ∀ target, .dead target ∈ verdicts → eviction.detector.HasForgotten target := by
  have running : acquainted.stopped = false := by decide +kernel
  have named : ∀ target, .dead target ∈ verdicts → target.HasNumericAddress := by
    intro target member
    simp only [verdicts, List.mem_cons, Finding.dead.injEq, reduceCtorEq, List.not_mem_nil,
      or_false, false_or] at member
    rcases member with rfl | rfl | rfl <;> decide +kernel
  exact
    ⟨running, written_acquainted, named,
      exactly_condemned_evicted running written_acquainted named rfl⟩

end Eviction

end Roster
