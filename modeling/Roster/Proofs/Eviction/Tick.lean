import Roster.Eviction
import Roster.Proofs.Attempt

/-!
# The tick of the eviction loop

A tick settles what time has brought: rounds fail, verdicts are passed, and what the
detector has found is acted upon.  Then a round starts if one is due and somebody is
left to be probed.
-/

namespace Roster

namespace Eviction

variable {eviction judged after : Eviction} {list listAfter : MemberList}
  {rotation rotationAfter : Rotation} {now : Nat} {actions told : List EvictionAction}

/-- What a tick does before it starts a round: it lets time pass and acts on what the
detector finds. -/
def settle (eviction : Eviction) (now : Nat) (list : MemberList) :
    Except Overflow (List EvictionAction × Eviction × MemberList) := do
  let (findings, detector) ← eviction.detector.checkTimeouts now
  return handle findings { eviction with detector } list

/-- The round of a tick: none is due, nobody is left to be probed, or a probe starts. -/
inductive Round (judged : Eviction) (list : MemberList) (rotation : Rotation) (now : Nat) :
    List EvictionAction → Eviction → Rotation → Prop where
  | early (undue : judged.detector.shouldProbe now = false) :
      Round judged list rotation now [] judged rotation
  | alone {turned : Rotation} (due : judged.detector.shouldProbe now = true)
      (chosen : judged.chooseTarget list rotation = (none, turned)) :
      Round judged list rotation now [] judged turned
  | probe {turned : Rotation} {target : Endpoint} {address : SocketAddress} {sequence : UInt64}
      {detector : Detector} (due : judged.detector.shouldProbe now = true)
      (chosen : judged.chooseTarget list rotation = (some (target, address), turned))
      (started : judged.detector.startProbe target now = .ok (sequence, detector)) :
      Round judged list rotation now [.probe sequence target address]
        { judged with detector } turned

theorem tick_of_not_running (halted : eviction.running = false) :
    eviction.tick now list rotation = .ok ([], eviction, list, rotation) := by
  rw [tick, if_pos (by simp [halted])]
  rfl

theorem tick_eq_ok (running : eviction.running = true)
    (ticked : eviction.tick now list rotation = .ok (actions, after, listAfter, rotationAfter)) :
    ∃ told judged asked, eviction.settle now list = .ok (told, judged, listAfter) ∧
      Round judged listAfter rotation now asked after rotationAfter ∧ actions = told ++ asked := by
  unfold tick at ticked
  rw [if_neg (by simp [running])] at ticked
  obtain ⟨⟨findings, detector⟩, checked, ticked⟩ := Attempt.bind_eq_ok ticked
  have settled :
      eviction.settle now list = .ok (handle findings { eviction with detector } list) := by
    rw [settle, checked]
    rfl
  simp only at ticked
  generalize handle findings { eviction with detector } list = result at ticked settled
  obtain ⟨told, judged, kept⟩ := result
  simp only at ticked
  split at ticked
  · rename_i undue
    cases ticked
    refine ⟨_, _, [], settled, .early ?_, (List.append_nil _).symm⟩
    simpa using undue
  rename_i due
  have due : judged.detector.shouldProbe now = true := by simpa using due
  cases chosen : judged.chooseTarget kept rotation with
  | mk choice turned =>
      rw [chosen] at ticked
      cases choice with
      | none =>
          cases ticked
          exact ⟨_, _, [], settled, .alone due chosen, (List.append_nil _).symm⟩
      | some choice =>
          obtain ⟨⟨sequence, begun⟩, started, same⟩ := Attempt.bind_eq_ok ticked
          cases same
          exact ⟨_, _, _, settled, .probe due chosen started, rfl⟩

theorem settle_eq_ok (settled : eviction.settle now list = .ok (told, judged, listAfter)) :
    ∃ findings detector, eviction.detector.checkTimeouts now = .ok (findings, detector) ∧
      handle findings { eviction with detector } list = (told, judged, listAfter) := by
  unfold settle at settled
  obtain ⟨⟨findings, detector⟩, checked, handled⟩ := Attempt.bind_eq_ok settled
  exact ⟨findings, detector, checked, Except.ok.inj handled⟩

end Eviction

end Roster
