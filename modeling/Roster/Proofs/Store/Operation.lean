import Roster.Proofs.SortedMap
import Roster.Proofs.Wire.Format
import Roster.Store.Operation

/-!
# Deltas are read back

Every list of operations is read back from its delta, however large its
numbers and texts.
-/

namespace Roster.Delta

open Wire

variable {α : Type}

theorem many_readsBack {format : Format α} {values : List α}
    (readBack : ∀ value ∈ values, format.ReadsBack value) :
    (many format).ReadsBack values :=
  Format.listAfter_readsBack (Format.natural_readsBack _) readBack

private theorem text_readsBack (value : String) : text.ReadsBack value :=
  Format.textAfter_readsBack (Format.natural_readsBack _)

private theorem version_readsBack (value : Version) : version.ReadsBack value := by
  refine Format.convert_readsBack (many_readsBack ?_) ?_
  · rintro ⟨replica, count⟩ _
    exact
      Format.pair_readsBack (Format.replica_readsBack replica) (Format.natural_readsBack count)
  · rw [SortedMap.ofList_entries]

private theorem optionalText_readsBack (value : Option String) : optionalText.ReadsBack value := by
  refine Format.convert_readsBack (many_readsBack fun text _ => text_readsBack text) ?_
  cases value <;> rfl

private theorem operation_readsBack (value : Operation) : operation.ReadsBack value := by
  refine Format.convert_readsBack ?_ rfl
  exact
    Format.pair_readsBack (Format.replica_readsBack _) <|
      Format.pair_readsBack (Format.natural_readsBack _) <|
        Format.pair_readsBack (Format.natural_readsBack _) <|
          Format.pair_readsBack (version_readsBack _) <|
            Format.pair_readsBack (text_readsBack _) <|
              Format.pair_readsBack (text_readsBack _) (optionalText_readsBack _)

/-- The operations of a delta are those it was made of. -/
theorem ofBytes?_toBytes (operations : List Operation) :
    ofBytes? (toBytes operations) = some operations := by
  have body :=
    many_readsBack (fun value (_ : value ∈ operations) => operation_readsBack value) []
  rw [List.append_nil] at body
  have marked : mark.isPrefixOf (toBytes operations) = true := by
    simp [toBytes]
  have unmarked : (toBytes operations).drop mark.length = (many operation).write operations := by
    simp [toBytes]
  simp only [ofBytes?, marked, if_true, unmarked, body]

end Roster.Delta
