import Mathlib.Algebra.Group.Nat.Defs
import Roster.Proofs.Attempt
import Roster.Wire.Envelope

/-!
# Formats that read back what they write

A value is read back if its bytes yield it again, with whatever follows them
left over.  Composed formats read a value back if their parts do.
-/

namespace Roster.Wire

namespace Varint

/-- The groups of a number are read back, if so many groups may be read. -/
theorem readGroups_write (value : Nat) :
    ∀ (count : Nat) (rest : Bytes), (write value).length ≤ count →
      readGroups count (write value ++ rest) = some (value, rest) := by
  induction value using Nat.strongRecOn with
  | ind value inductionHypothesis =>
      intro count rest enough
      rw [write] at enough ⊢
      split at enough
      · rename_i small
        obtain ⟨more, rfl⟩ := Nat.exists_eq_add_of_lt (Nat.lt_of_lt_of_le Nat.zero_lt_one enough)
        have byte : (UInt8.ofNat value).toNat = value := by
          simp only [UInt8.toNat_ofNat']
          omega
        have last : UInt8.ofNat value < 128 := by
          rw [UInt8.lt_iff_toNat_lt, byte]
          exact small
        rw [if_pos small]
        simp [readGroups, last, byte]
      · rename_i large
        obtain ⟨more, rfl⟩ :=
          Nat.exists_eq_add_of_lt (Nat.lt_of_lt_of_le (Nat.zero_lt_succ _) enough)
        have byte : (UInt8.ofNat (value % 128 + 128)).toNat = value % 128 + 128 := by
          simp only [UInt8.toNat_ofNat']
          omega
        have goesOn : ¬ UInt8.ofNat (value % 128 + 128) < 128 := by
          rw [UInt8.lt_iff_toNat_lt, byte]
          simp
        have enoughLater : (write (value / 128)).length ≤ 0 + more := by
          simp only [List.length_cons] at enough
          omega
        have later :=
          inductionHypothesis (value / 128) (by omega) (0 + more) rest enoughLater
        rw [if_neg large]
        simp only [List.cons_append, readGroups, goesOn, if_false, later, byte,
          Option.bind_eq_bind, Option.bind_some, Option.pure_def, Option.some.injEq,
          Prod.mk.injEq, and_true]
        omega

end Varint

namespace Format

variable {α β : Type}

/-- The bytes of the value yield the value, and leave what follows them. -/
def ReadsBack (format : Format α) (value : α) : Prop :=
  ∀ rest, format.read (format.write value ++ rest) = .ok (value, rest)

theorem splitAt?_append (front rest : Bytes) :
    splitAt? front.length (front ++ rest) = some (front, rest) := by
  simp [splitAt?]

theorem natural_readsBack (value : Nat) : natural.ReadsBack value := by
  intro rest
  have enough : (Varint.write value).length ≤ (Varint.write value ++ rest).length := by
    simp
  simp only [natural, Varint.readGroups_write value _ rest enough]

theorem length_littleEndian : ∀ width value : Nat, (littleEndian width value).length = width
  | 0, _ => rfl
  | width + 1, value => by
      simp [littleEndian, length_littleEndian width]

private theorem ofLittleEndian_littleEndian :
    ∀ {width value : Nat}, value < 256 ^ width →
      ofLittleEndian (littleEndian width value) = value
  | 0, value, fits => by
      simp only [Nat.pow_zero] at fits
      simp [littleEndian, ofLittleEndian]
      omega
  | width + 1, value, fits => by
      have later : value / 256 < 256 ^ width := by
        rw [Nat.pow_succ] at fits
        exact Nat.div_lt_of_lt_mul (by rwa [Nat.mul_comm])
      simp only [littleEndian, ofLittleEndian, ofLittleEndian_littleEndian later,
        UInt8.toNat_ofNat']
      omega

/-- A number of a fixed width is read back if it fits. -/
theorem number_readsBack {width value : Nat} (fits : value < 256 ^ width) :
    (number width).ReadsBack value := by
  intro rest
  have split := splitAt?_append (littleEndian width value) rest
  rw [length_littleEndian] at split
  simp only [number, split, ofLittleEndian_littleEndian fits]

theorem convert_readsBack {format : Format α} {build : α → β} {parts : β → α} {value : β}
    (inner : format.ReadsBack (parts value)) (rebuilt : build (parts value) = value) :
    (format.convert build parts).ReadsBack value := by
  intro rest
  simp only [convert, inner rest]
  exact congrArg (fun built => Except.ok (built, rest)) rebuilt

theorem pair_readsBack {first : Format α} {second : Format β} {value : α × β}
    (left : first.ReadsBack value.1) (right : second.ReadsBack value.2) :
    (pair first second).ReadsBack value := by
  intro rest
  simp only [pair, List.append_assoc, left (second.write value.2 ++ rest), Attempt.ok_bind,
    right rest]
  rfl

private theorem word_readsBack (value : UInt64) : word.ReadsBack value :=
  convert_readsBack (number_readsBack value.toNat_lt) UInt64.ofNat_toNat

theorem replica_readsBack (replica : ReplicaId) : Format.replica.ReadsBack replica :=
  convert_readsBack (word_readsBack replica.value) rfl

private theorem fromUTF8?_utf8 (value : String) :
    String.fromUTF8? ⟨(utf8 value).toArray⟩ = some value := by
  have valid : value.toUTF8.IsValidUTF8 := value.isValidUTF8
  have same : (⟨(utf8 value).toArray⟩ : ByteArray) = value.toUTF8 := by
    simp [utf8]
  rw [same, String.fromUTF8?, dif_pos valid]
  rfl

/-- Text is read back if the count of its bytes is. -/
theorem textAfter_readsBack {size : Format Nat} {value : String}
    (count : size.ReadsBack (utf8 value).length) :
    (textAfter size).ReadsBack value := by
  intro rest
  simp only [textAfter, List.append_assoc, count (utf8 value ++ rest), Attempt.ok_bind,
    splitAt?_append, fromUTF8?_utf8]
  rfl

private theorem readMany_flatMap {format : Format α} (rest : Bytes) :
    ∀ values : List α, (∀ value ∈ values, format.ReadsBack value) →
      readMany format values.length (values.flatMap format.write ++ rest) = .ok (values, rest)
  | [], _ => rfl
  | value :: values, readBack => by
      have first := readBack value List.mem_cons_self
      have later :=
        readMany_flatMap rest values fun other member =>
          readBack other (List.mem_cons_of_mem _ member)
      rw [List.flatMap_cons, List.append_assoc, List.length_cons, readMany,
        first (values.flatMap format.write ++ rest)]
      simp only [Attempt.ok_bind, later]
      rfl

/-- A list is read back if its length and its values are. -/
theorem listAfter_readsBack {size : Format Nat} {format : Format α} {values : List α}
    (count : size.ReadsBack values.length)
    (readBack : ∀ value ∈ values, format.ReadsBack value) :
    (listAfter size format).ReadsBack values := by
  intro rest
  simp only [listAfter, List.append_assoc, count (values.flatMap format.write ++ rest),
    Attempt.ok_bind]
  exact readMany_flatMap rest values readBack

end Format

end Roster.Wire
