import Roster.Proofs.SortedMap
import Roster.Proofs.Wire.Format

/-!
# Lawful formats

A reader is steady if bytes that follow what it reads change nothing but what
it leaves over.  A format is lawful if its reader is steady and reads back
every value that has fewer bytes than a word can count.  Then no proper front
part of the bytes of a value can be read.

Composed formats are lawful if their parts are.
-/

namespace Roster.Wire

variable {α β : Type}

/-! ## Steady readers -/

/-- Reads a value from the front of bytes. -/
abbrev Reader (α : Type) :=
  Bytes → Except Fault (α × Bytes)

namespace Reader

/-- With more bytes at the end the same value is read, and they are left
over. -/
def Steady (read : Reader α) : Prop :=
  ∀ ⦃input rest : Bytes⦄ ⦃value : α⦄, read input = .ok (value, rest) →
    ∀ more, read (input ++ more) = .ok (value, rest ++ more)

/-- The bytes yield the value, and whatever follows them is left over. -/
def Yields (read : Reader α) (front : Bytes) (value : α) : Prop :=
  ∀ rest, read (front ++ rest) = .ok (value, rest)

/-- No proper front part of bytes that yield a value can be read: with the missing bytes
added it would leave them over. -/
theorem Steady.read_of_isPrefix {read : Reader α} (steady : read.Steady) {front shorter : Bytes}
    {value : α} (yields : read.Yields front value) (isFront : shorter <+: front)
    (proper : shorter ≠ front) :
    ∃ fault, read shorter = .error fault := by
  obtain ⟨missing, whole⟩ := isFront
  cases result : read shorter with
  | error fault => exact ⟨fault, rfl⟩
  | ok pair =>
      obtain ⟨found, rest⟩ := pair
      have left := steady result missing
      have back := yields []
      rw [List.append_nil, ← whole, left] at back
      have nothing : rest ++ missing = [] := congrArg Prod.snd (Except.ok.inj back)
      rw [(List.append_eq_nil_iff.mp nothing).2, List.append_nil] at whole
      exact absurd whole proper

theorem steady_return (value : α) : Steady fun input => .ok (value, input) := by
  intro input rest found read more
  cases read
  rfl

/-- One reader after another, chosen by what was read first. -/
theorem Steady.bind {first : Reader α} {next : α → Reader β} (steady : first.Steady)
    (steadyNext : ∀ value, (next value).Steady) :
    Steady fun input => first input >>= fun result => next result.1 result.2 := by
  intro input rest value read more
  obtain ⟨⟨found, middle⟩, readFirst, readNext⟩ := Attempt.bind_eq_ok read
  simp only [steady readFirst more, Attempt.ok_bind]
  exact steadyNext found readNext more

end Reader

/-! ## Lawful formats -/

namespace Format

/-- The reader is steady, and values of no more bytes than a word can count are
read back; each of them has bytes. -/
structure Lawful (format : Format α) : Prop where
  steady : Reader.Steady format.read
  readsBack : ∀ value, (format.write value).length < Word.bound → format.ReadsBack value
  write_ne_nil : ∀ value, format.write value ≠ []

/-! ## Numbers -/

theorem splitAt?_append_of_eq_some {count : Nat} {bytes front rest : Bytes}
    (split : splitAt? count bytes = some (front, rest)) (more : Bytes) :
    splitAt? count (bytes ++ more) = some (front, rest ++ more) := by
  unfold splitAt? at split ⊢
  simp only at split ⊢
  split at split
  · rename_i enough
    cases split
    have within : count ≤ bytes.length := by
      rw [List.length_take] at enough
      omega
    rw [List.take_append_of_le_length within, List.drop_append_of_le_length within,
      if_pos enough]
  · cases split

theorem steady_number (width : Nat) : Reader.Steady (number width).read := by
  intro input rest value read more
  simp only [number] at read ⊢
  split at read
  · rename_i front left split
    cases read
    rw [splitAt?_append_of_eq_some split more]
  · cases read

theorem write_number_ne_nil (width value : Nat) : (number (width + 1)).write value ≠ [] := by
  simp [number, littleEndian]

/-- A number whose values all fit is a lawful format of what it stands for. -/
private theorem lawful_convert_number {width : Nat} {build : Nat → β} {parts : β → Nat}
    (fits : ∀ value, parts value < 256 ^ (width + 1))
    (rebuilt : ∀ value, build (parts value) = value) :
    ((number (width + 1)).convert build parts).Lawful where
  steady := (steady_number _).bind fun _ => Reader.steady_return _
  readsBack value _ := convert_readsBack (number_readsBack (fits value)) (rebuilt value)
  write_ne_nil _ := write_number_ne_nil _ _

theorem lawful_port : port.Lawful :=
  lawful_convert_number (fun value => value.toNat_lt) fun _ => UInt16.ofNat_toNat

theorem lawful_word : word.Lawful :=
  lawful_convert_number (fun value => value.toNat_lt) fun _ => UInt64.ofNat_toNat

theorem lawful_flag : flag.Lawful where
  steady := by
    intro input rest value read more
    cases input with
    | nil => cases read
    | cons byte input =>
        simp only [flag, List.cons_append] at read ⊢
        split at read
        · rename_i isZero
          cases read
          rw [if_pos isZero]
        · rename_i notZero
          rw [if_neg notZero]
          split at read
          · rename_i isOne
            cases read
            rw [if_pos isOne]
          · cases read
  readsBack value _ rest := by
    cases value <;> rfl
  write_ne_nil _ := List.cons_ne_nil _ _

/-! ## Composed formats -/

theorem Lawful.convert {format : Format α} {build : α → β} {parts : β → α}
    (lawful : format.Lawful) (rebuilt : ∀ value, build (parts value) = value) :
    (format.convert build parts).Lawful where
  steady := lawful.steady.bind fun _ => Reader.steady_return _
  readsBack value short := convert_readsBack (lawful.readsBack _ short) (rebuilt value)
  write_ne_nil value := lawful.write_ne_nil (parts value)

theorem Lawful.pair {first : Format α} {second : Format β} (left : first.Lawful)
    (right : second.Lawful) : (first.pair second).Lawful where
  steady := left.steady.bind fun _ => right.steady.bind fun _ => Reader.steady_return _
  readsBack value short := by
    have both : (first.write value.1).length + (second.write value.2).length < Word.bound := by
      rw [← List.length_append]
      exact short
    exact pair_readsBack (left.readsBack _ (by omega)) (right.readsBack _ (by omega))
  write_ne_nil value empty := left.write_ne_nil _ (List.append_eq_nil_iff.mp empty).1

theorem number_readsBack_of_lt {value : Nat} (fits : value < Word.bound) :
    (number 8).ReadsBack value :=
  number_readsBack (Nat.lt_of_lt_of_eq fits rfl)

theorem lawful_bytes : bytes.Lawful where
  steady := by
    intro input rest value read more
    obtain ⟨⟨count, counted⟩, number, read⟩ := Attempt.bind_eq_ok read
    simp only [bytes, steady_number 8 number more, Attempt.ok_bind] at read ⊢
    split at read
    · rename_i split
      cases read
      rw [splitAt?_append_of_eq_some split more]
      rfl
    · cases read
  readsBack value short rest := by
    have count : value.length < Word.bound := by
      simp only [bytes, List.length_append] at short
      omega
    simp only [bytes, List.append_assoc, number_readsBack_of_lt count (value ++ rest),
      Attempt.ok_bind, splitAt?_append]
    rfl
  write_ne_nil value empty := write_number_ne_nil _ _ (List.append_eq_nil_iff.mp empty).1

theorem lawful_text : text.Lawful where
  steady := by
    intro input rest value read more
    obtain ⟨⟨count, counted⟩, number, read⟩ := Attempt.bind_eq_ok read
    simp only [text, textAfter, steady_number 8 number more, Attempt.ok_bind] at read ⊢
    split at read
    · cases read
    · rename_i split
      rw [splitAt?_append_of_eq_some split more]
      simp only
      split at read
      · cases read
        rfl
      · cases read
  readsBack value short := by
    have count : (utf8 value).length < Word.bound := by
      simp only [text, textAfter, List.length_append] at short
      omega
    exact textAfter_readsBack (number_readsBack_of_lt count)
  write_ne_nil value empty := write_number_ne_nil _ _ (List.append_eq_nil_iff.mp empty).1

/-- Values that each have bytes are no more than their bytes. -/
theorem Lawful.length_le {format : Format α} (lawful : format.Lawful) :
    ∀ values : List α, values.length ≤ (values.flatMap format.write).length
  | [] => Nat.le_refl 0
  | value :: rest => by
      have some := List.length_pos_iff.mpr (lawful.write_ne_nil value)
      have others := lawful.length_le rest
      rw [List.flatMap_cons, List.length_append, List.length_cons]
      omega

theorem Lawful.length_write_le {format : Format α} {values : List α} {value : α}
    (member : value ∈ values) :
    (format.write value).length ≤ (values.flatMap format.write).length := by
  obtain ⟨front, back, rfl⟩ := List.append_of_mem member
  simp only [List.flatMap_append, List.flatMap_cons, List.length_append]
  omega

private theorem steady_readMany {format : Format α} (steady : Reader.Steady format.read) :
    ∀ count, Reader.Steady (readMany format count)
  | 0 => Reader.steady_return []
  | count + 1 =>
      steady.bind fun _ => (steady_readMany steady count).bind fun _ => Reader.steady_return _

theorem Lawful.list {format : Format α} (lawful : format.Lawful) :
    (Format.list format).Lawful where
  steady := (steady_number 8).bind fun count => steady_readMany lawful.steady count
  readsBack values short := by
    have content : (values.flatMap format.write).length < Word.bound := by
      simp only [Format.list, listAfter, List.length_append] at short
      omega
    refine listAfter_readsBack (number_readsBack_of_lt ?_) fun value member => ?_
    · exact Nat.lt_of_le_of_lt (lawful.length_le values) content
    · exact lawful.readsBack value (Nat.lt_of_le_of_lt (length_write_le member) content)
  write_ne_nil values empty := write_number_ne_nil _ _ (List.append_eq_nil_iff.mp empty).1

theorem Lawful.map {format : Format α} (lawful : format.Lawful) : (Format.map format).Lawful :=
  (lawful_text.pair lawful).list.convert SortedMap.ofList_entries

end Format

end Roster.Wire
