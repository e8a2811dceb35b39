import Roster.Proofs.MemberList.Attribution
import Roster.Proofs.MemberList.Presence

/-!
# Whom a repair spares

A repair deletes no members but endpoints that the list's own endpoint
supersedes.  The endpoints of other hosts are safe from it, and so is the own
endpoint.
-/

namespace Roster.MemberList

variable {list after : MemberList} {own : Endpoint}

/-! ## Members -/

/-- Only endpoints that `own` supersedes have been deleted. -/
def Spares (own : Endpoint) (before after : MemberList) : Prop :=
  ∀ delete ∈ after.log membershipUri, delete.value = none →
    delete ∈ before.log membershipUri ∨
      ∃ older : Endpoint, own.supersedes older = true ∧ delete.key = older.key

namespace Spares

theorem of_log (same : after.log membershipUri = list.log membershipUri) :
    Spares own list after := by
  intro delete held _
  exact Or.inl (same ▸ held)

theorem trans {first second third : MemberList} (left : Spares own first second)
    (right : Spares own second third) :
    Spares own first third := by
  intro delete held absent
  rcases right delete held absent with before | superseded
  · exact left delete before absent
  · exact Or.inr superseded

theorem of_write_hosting (edits : List Edit) :
    Spares own list (list.write hostingUri edits).2 :=
  of_log (log_write_of_ne (by decide))

theorem withdraw {endpoint : Endpoint} (older : own.supersedes endpoint = true) :
    Spares own list (list.withdraw endpoint).2 := by
  have member : Spares own list (list.write membershipUri [.delete endpoint.key]).2 := by
    intro delete held _
    obtain ⟨more, appended, _, written⟩ :=
      log_write_singleton list membershipUri (.delete endpoint.key)
    rw [appended] at held
    rcases List.mem_append.mp held with before | added
    · exact Or.inl before
    · exact Or.inr ⟨endpoint, older, (written delete added).2.1⟩
  exact member.trans (of_write_hosting _)

theorem withdrawOlder :
    ∀ {older : List Endpoint} {list : MemberList},
      (∀ endpoint ∈ older, own.supersedes endpoint = true) →
        Spares own list (list.withdrawOlder older)
  | [], _, _ => of_log rfl
  | endpoint :: rest, list, superseded => by
      have first : Spares own list (list.withdraw endpoint).2 :=
        withdraw (superseded endpoint List.mem_cons_self)
      exact
        first.trans
          (withdrawOlder fun later member => superseded later (List.mem_cons_of_mem _ member))

theorem reincarnate {offered : UInt64} (returned : list.reincarnate offered = .ok after) :
    Spares own list after := by
  obtain ⟨next, _, rfl⟩ := reincarnate_eq_ok returned
  have announced : Spares own list (announce { list with own := next }) := by
    intro delete held absent
    obtain ⟨more, appended, _, written⟩ :=
      log_write_singleton { list with own := next } membershipUri
        (.put next.key list.tags.toText)
    have appendedHere :
        (announce { list with own := next }).log membershipUri =
          list.log membershipUri ++ more :=
      appended
    rw [appendedHere] at held
    rcases List.mem_append.mp held with before | added
    · exact Or.inl before
    · rw [(written delete added).2.2] at absent
      cases absent
  exact announced.trans (of_write_hosting _)

/-- A repair deletes endpoints that are superseded, and no others. -/
theorem repair {offered : UInt64} {changed : Bool} {made : Outcome}
    (repaired : list.repair offered changed = .ok (made, after)) :
    Spares after.own list after := by
  have cleaned :
      ∀ {own : Endpoint}, own = list.own ∨ own.supersedes list.own = true →
        Spares own list list.cleaned := by
    intro own latest
    apply withdrawOlder
    intro endpoint member
    have older := (List.mem_filter.mp member).2
    rcases latest with same | later
    · rwa [same]
    · exact Endpoint.supersedes_trans later older
  cases repairs_of_eq_ok repaired with
  | unchanged => exact of_log rfl
  | restored _ =>
      rw [own_restoreHosting, own_cleaned]
      exact (cleaned (Or.inl rfl)).trans (of_write_hosting _)
  | returned _ returned =>
      have later := supersedes_of_reincarnate returned
      rw [own_cleaned] at later
      rw [own_restoreHosting]
      exact ((cleaned (Or.inr later)).trans (reincarnate returned)).trans (of_write_hosting _)

end Spares

/-! ## The own endpoint -/

def Announced (list : MemberList) : Prop :=
  ∃ put ∈ list.log membershipUri, put.map = membershipUri ∧ put.key = list.own.key

namespace Announced

theorem of_log_subset (announced : list.Announced) (sameOwn : after.own = list.own)
    (kept : ∀ operation ∈ list.log membershipUri, operation ∈ after.log membershipUri) :
    after.Announced := by
  obtain ⟨put, held, map, key⟩ := announced
  exact ⟨put, kept put held, map, by rw [sameOwn, key]⟩

theorem write (announced : list.Announced) (uri : String) (edits : List Edit) :
    (list.write uri edits).2.Announced := by
  apply announced.of_log_subset own_write
  intro operation held
  by_cases here : membershipUri = uri
  · subst here
    obtain ⟨more, appended, _⟩ := exists_log_write list membershipUri edits
    rw [appended]
    exact List.mem_append_left more held
  · rwa [log_write_of_ne here]

theorem announce (list : MemberList) : (MemberList.announce list).Announced := by
  have present :
      ((MemberList.announce list).store.entries membershipUri).get? list.own.key =
        some list.tags.toText := by
    simp only [MemberList.announce]
    rw [get?_entries_write_singleton]
    exact if_pos rfl
  obtain ⟨put, held, map, key, _⟩ := Document.exists_put_of_get?_entriesOf present
  exact ⟨put, held, map, by rw [key, MemberList.announce, own_write]⟩

/-- Whatever a list does of its own accord, its endpoint is one that it has
announced. -/
theorem evolve {start : MemberList} {names known : List Endpoint}
    (announced : start.Announced) (evolved : Evolves start names after known) :
    after.Announced := by
  induction evolved with
  | refl => exact announced
  | erase _ _ _ inductionHypothesis => exact inductionHypothesis.write _ _
  | place _ _ inductionHypothesis => exact inductionHypothesis.write _ _
  | rejoin _ _ _ => exact announce _
  | employ _ _ inductionHypothesis => exact inductionHypothesis
  | leave _ inductionHypothesis => exact inductionHypothesis

end Announced

end Roster.MemberList
