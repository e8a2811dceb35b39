import Mathlib.Data.List.TakeWhile
import Mathlib.Logic.Function.Basic
import Roster.Endpoint

/-!
# Keys of endpoints

A key determines its endpoint.  It is read back as that endpoint unless the
address is empty or has a bracket at one of its ends.  The address of an
endpoint that can be dialled is numeric: it consists of digits, letters up to
`f`, points and colons, so its key is read back.
-/

namespace Roster

namespace Text

/-! ## Numbers and marks -/

private theorem isDigit_of_mem_decimal {value : Nat} {c : Char} (member : c ∈ decimal value) :
    c.isDigit = true :=
  Nat.isDigit_of_mem_toDigits (by decide) (by decide) member

theorem not_mem_decimal {value : Nat} {mark : Char} (notDigit : mark.isDigit = false) :
    mark ∉ decimal value := by
  intro member
  rw [isDigit_of_mem_decimal member] at notDigit
  cases notDigit

private theorem decimal_injective : Function.Injective decimal := by
  intro left right same
  have values := congrArg (Nat.ofDigitChars 10 · 0) same
  simpa only [decimal, Nat.ofDigitChars_ten_toDigits] using values

private theorem readDecimal_decimal {bound value : Nat} (fits : value < bound) :
    readDecimal bound (decimal value) = some value := by
  have digits : (decimal value).all Char.isDigit = true :=
    List.all_eq_true.mpr fun _ member => isDigit_of_mem_decimal member
  have nonempty : (decimal value).isEmpty = false := by
    simp [decimal, Nat.toDigits_ne_nil]
  have valueBack : Nat.ofDigitChars 10 (decimal value) 0 = value :=
    Nat.ofDigitChars_ten_toDigits
  simp [readDecimal, digits, nonempty, valueBack, fits]

private theorem readUnsigned_decimal {bound value : Nat} (fits : value < bound) :
    readUnsigned bound (decimal value) = some value := by
  unfold readUnsigned
  split
  · rename_i rest equal
    have plus : '+' ∈ decimal value := by
      rw [equal]
      exact List.mem_cons_self
    exact absurd plus (not_mem_decimal (by decide))
  · exact readDecimal_decimal fits

private theorem splitLast_eq_none {mark : Char} :
    ∀ {text : List Char}, mark ∉ text → splitLast mark text = none
  | [], _ => rfl
  | c :: rest, absent => by
      have absentLater : mark ∉ rest := fun later => absent (List.mem_cons_of_mem _ later)
      have different : c ≠ mark := by
        rintro rfl
        exact absent List.mem_cons_self
      rw [splitLast, splitLast_eq_none absentLater]
      simp [different]

theorem splitLast_append {mark : Char} {back : List Char} (absent : mark ∉ back) :
    ∀ front : List Char, splitLast mark (front ++ mark :: back) = some (front, back)
  | [] => by
      simp [splitLast, splitLast_eq_none absent]
  | c :: front => by
      simp [splitLast, splitLast_append absent front]

/-- What stands after the last mark, and what stands before it, are determined. -/
theorem append_mark_inj {mark : Char} {front front' back back' : List Char}
    (absent : mark ∉ back) (absent' : mark ∉ back')
    (same : front ++ mark :: back = front' ++ mark :: back') :
    front = front' ∧ back = back' := by
  have splits := congrArg (splitLast mark) same
  rw [splitLast_append absent, splitLast_append absent'] at splits
  exact Prod.mk.inj (Option.some.inj splits)

end Text

namespace Endpoint

/-- The address as it stands in a key. -/
def enclosed (address : List Char) : List Char :=
  if ':' ∈ address then ['['] ++ address ++ [']'] else address

theorem keyChars_eq (endpoint : Endpoint) :
    endpoint.keyChars =
      (enclosed endpoint.address.toList ++ ':' :: Text.decimal endpoint.port.toNat) ++
        '#' :: Text.decimal endpoint.incarnation.toNat := by
  simp [keyChars, hostChars, enclosed]

private theorem enclosed_injective : Function.Injective enclosed := by
  intro left right same
  have colon : ∀ address : List Char, ':' ∈ enclosed address ↔ ':' ∈ address := by
    intro address
    unfold enclosed
    split <;> simp_all
  have sameColon : ':' ∈ left ↔ ':' ∈ right := by
    rw [← colon left, ← colon right, same]
  unfold enclosed at same
  by_cases inside : ':' ∈ left
  · rw [if_pos inside, if_pos (sameColon.mp inside)] at same
    simpa using same
  · rw [if_neg inside, if_neg fun other => inside (sameColon.mpr other)] at same
    exact same

/-- A key determines its endpoint, whatever the address. -/
theorem key_injective : Function.Injective key := by
  intro left right same
  have sameChars : left.keyChars = right.keyChars := String.ofList_injective same
  rw [keyChars_eq, keyChars_eq] at sameChars
  obtain ⟨sameHosts, sameIncarnations⟩ :=
    Text.append_mark_inj (Text.not_mem_decimal (by decide)) (Text.not_mem_decimal (by decide))
      sameChars
  obtain ⟨sameAddresses, samePorts⟩ :=
    Text.append_mark_inj (Text.not_mem_decimal (by decide)) (Text.not_mem_decimal (by decide))
      sameHosts
  have address : left.address = right.address :=
    String.toList_injective (enclosed_injective sameAddresses)
  have port : left.port = right.port := UInt16.toNat_inj.mp (Text.decimal_injective samePorts)
  have incarnation : left.incarnation = right.incarnation :=
    UInt64.toNat_inj.mp (Text.decimal_injective sameIncarnations)
  cases left
  cases right
  simp_all

/-! ## Incarnations -/

theorem sameHost_iff {left right : Endpoint} :
    left.sameHost right = true ↔ left.address = right.address ∧ left.port = right.port := by
  simp [sameHost, and_comm]

theorem supersedes_iff {left right : Endpoint} :
    left.supersedes right = true ↔
      left.sameHost right = true ∧ right.incarnation < left.incarnation := by
  simp [supersedes]

theorem sameHost_symm {left right : Endpoint} (same : left.sameHost right = true) :
    right.sameHost left = true := by
  obtain ⟨address, port⟩ := sameHost_iff.mp same
  exact sameHost_iff.mpr ⟨address.symm, port.symm⟩

theorem sameHost_trans {first second third : Endpoint} (left : first.sameHost second = true)
    (right : second.sameHost third = true) :
    first.sameHost third = true := by
  obtain ⟨address, port⟩ := sameHost_iff.mp left
  obtain ⟨address', port'⟩ := sameHost_iff.mp right
  exact sameHost_iff.mpr ⟨address.trans address', port.trans port'⟩

theorem supersedes_trans {first second third : Endpoint}
    (left : first.supersedes second = true) (right : second.supersedes third = true) :
    first.supersedes third = true := by
  obtain ⟨leftHost, leftLater⟩ := supersedes_iff.mp left
  obtain ⟨rightHost, rightLater⟩ := supersedes_iff.mp right
  exact supersedes_iff.mpr ⟨sameHost_trans leftHost rightHost, UInt64.lt_trans rightLater leftLater⟩

theorem ne_of_supersedes {left right : Endpoint} (later : left.supersedes right = true) :
    left ≠ right := by
  rintro rfl
  exact absurd (supersedes_iff.mp later).2 (UInt64.lt_irrefl _)

/-- Of two endpoints of one host one supersedes the other. -/
theorem supersedes_eq_false_iff {left right : Endpoint} (same : left.sameHost right = true)
    (different : left ≠ right) :
    right.supersedes left = false ↔ left.supersedes right = true := by
  rw [← Bool.not_eq_true, supersedes_iff, supersedes_iff, and_iff_right same,
    and_iff_right (sameHost_symm same), UInt64.not_lt]
  constructor
  · intro notEarlier
    refine UInt64.lt_of_le_of_ne notEarlier fun sameIncarnation => different ?_
    obtain ⟨address, port⟩ := sameHost_iff.mp same
    cases left
    cases right
    simp_all
  · exact UInt64.le_of_lt

/-- An incarnation that is drawn is no earlier than the least one allowed. -/
theorem le_nextIncarnation (offered least : UInt64) : least ≤ nextIncarnation offered least := by
  have maximum :
      nextIncarnation offered least = if offered ≤ least then least else offered :=
    rfl
  rw [maximum]
  split
  · exact UInt64.le_refl least
  · rename_i above
    exact UInt64.le_of_lt (UInt64.not_le.mp above)

/-! ## Reading keys back -/

def ReadsBack (endpoint : Endpoint) : Prop :=
  ofKey? endpoint.key = some endpoint

instance (endpoint : Endpoint) : Decidable endpoint.ReadsBack :=
  inferInstanceAs (Decidable (_ = _))

private theorem dropWhile_append_of_head {c : Char} {text : List Char}
    (nonempty : text ≠ []) (head : text.head? ≠ some c) (back : List Char) :
    (text ++ back).dropWhile (· = c) = text ++ back := by
  cases text with
  | nil => exact absurd rfl nonempty
  | cons first rest =>
      have different : first ≠ c := by simpa using head
      simp [different]

private theorem dropEnd_eq_self {c : Char} {text : List Char} (last : text.getLast? ≠ some c) :
    Text.dropEnd (· = c) text = text := by
  unfold Text.dropEnd
  cases reversed : text.reverse with
  | nil => simpa using (List.reverse_eq_nil_iff.mp reversed).symm
  | cons first rest =>
      have different : first ≠ c := by
        rintro rfl
        apply last
        rw [List.getLast?_eq_head?_reverse, reversed]
        rfl
      rw [List.dropWhile_cons_of_neg (by simpa using different), ← reversed, List.reverse_reverse]

private theorem dropEnd_append_singleton {c : Char} {text : List Char} :
    Text.dropEnd (· = c) (text ++ [c]) = Text.dropEnd (· = c) text := by
  simp [Text.dropEnd]

/-- Without a bracket at its ends, the address comes out of its enclosure. -/
private theorem strip_enclosed {address : List Char} (nonempty : address ≠ [])
    (head : address.head? ≠ some '[') (last : address.getLast? ≠ some ']') :
    Text.dropEnd (· = ']') ((enclosed address).dropWhile (· = '[')) = address := by
  unfold enclosed
  split
  · have front :
        (['['] ++ address ++ [']']).dropWhile (· = '[') = address ++ [']'] := by
      rw [List.append_assoc, List.singleton_append,
        List.dropWhile_cons_of_pos (by decide), dropWhile_append_of_head nonempty head]
    rw [front, dropEnd_append_singleton, dropEnd_eq_self last]
  · have front : address.dropWhile (· = '[') = address := by
      have kept := dropWhile_append_of_head nonempty head
      simpa using kept []
    rw [front, dropEnd_eq_self last]

/-- A key is read back unless its address is empty or changes when brackets at
its ends are left out. -/
theorem readsBack_iff {endpoint : Endpoint} :
    endpoint.ReadsBack ↔
      Text.dropEnd (· = ']') ((enclosed endpoint.address.toList).dropWhile (· = '[')) =
          endpoint.address.toList ∧
        endpoint.address.toList ≠ [] := by
  have incarnation :
      Text.readUnsigned UInt64.size (Text.decimal endpoint.incarnation.toNat) =
        some endpoint.incarnation.toNat :=
    Text.readUnsigned_decimal endpoint.incarnation.toNat_lt
  have port :
      Text.readUnsigned UInt16.size (Text.decimal endpoint.port.toNat) =
        some endpoint.port.toNat :=
    Text.readUnsigned_decimal endpoint.port.toNat_lt
  have noColon : ':' ∉ Text.decimal endpoint.port.toNat :=
    Text.not_mem_decimal (by decide)
  have beforePort := Text.splitLast_append noColon (enclosed endpoint.address.toList)
  unfold ReadsBack ofKey? key
  rw [String.toList_ofList, keyChars_eq, ofKeyChars?,
    Text.splitLast_append (Text.not_mem_decimal (by decide))]
  simp only [Option.bind_eq_bind, Option.bind_some, incarnation, beforePort, port]
  constructor
  · intro read
    split at read
    · cases read
    · rename_i nonempty
      have sameAddress := congrArg Endpoint.address (Option.some.inj read)
      have sameChars := congrArg String.toList sameAddress
      rw [String.toList_ofList] at sameChars
      refine ⟨sameChars, ?_⟩
      rwa [sameChars, List.isEmpty_iff] at nonempty
  · rintro ⟨stripped, nonempty⟩
    simp [stripped, nonempty]

theorem readsBack_of_ends {endpoint : Endpoint}
    (nonempty : endpoint.address.toList ≠ [])
    (head : endpoint.address.toList.head? ≠ some '[')
    (last : endpoint.address.toList.getLast? ≠ some ']') :
    endpoint.ReadsBack :=
  readsBack_iff.mpr ⟨strip_enclosed nonempty head last, nonempty⟩

/-- Whether a key is read back depends on the address alone. -/
theorem ReadsBack.of_sameHost {left right : Endpoint} (readsBack : right.ReadsBack)
    (same : left.sameHost right = true) :
    left.ReadsBack := by
  rw [readsBack_iff] at readsBack ⊢
  rw [(sameHost_iff.mp same).1]
  exact readsBack

private theorem head?_dropWhile_ne (c : Char) (text : List Char) :
    (text.dropWhile (· = c)).head? ≠ some c := by
  rw [← List.find?_not_eq_head?_dropWhile]
  intro found
  have kept := List.find?_some found
  simp at kept

private theorem getLast?_dropEnd_ne (c : Char) (text : List Char) :
    (Text.dropEnd (· = c) text).getLast? ≠ some c := by
  rw [Text.dropEnd, List.getLast?_reverse]
  exact head?_dropWhile_ne c text.reverse

private theorem dropEnd_prefix (removed : Char → Bool) (text : List Char) :
    Text.dropEnd removed text <+: text := by
  rw [← List.reverse_suffix, Text.dropEnd, List.reverse_reverse]
  exact List.dropWhile_suffix removed

private theorem head?_strip_ne (text : List Char) :
    (Text.dropEnd (· = ']') (text.dropWhile (· = '['))).head? ≠ some '[' := by
  intro head
  obtain ⟨removed, whole⟩ := dropEnd_prefix (· = ']') (text.dropWhile (· = '['))
  refine head?_dropWhile_ne '[' text ?_
  rw [← whole, List.head?_append, head]
  rfl

/-- A key is read back exactly if the address has no bracket at its ends and is
not empty. -/
private theorem readsBack_iff_ends {endpoint : Endpoint} :
    endpoint.ReadsBack ↔
      endpoint.address.toList ≠ [] ∧
        endpoint.address.toList.head? ≠ some '[' ∧
          endpoint.address.toList.getLast? ≠ some ']' := by
  constructor
  · intro readsBack
    obtain ⟨stripped, nonempty⟩ := readsBack_iff.mp readsBack
    refine ⟨nonempty, ?_, ?_⟩
    · rw [← stripped]
      exact head?_strip_ne _
    · rw [← stripped]
      exact getLast?_dropEnd_ne ']' _
  · rintro ⟨nonempty, head, last⟩
    exact readsBack_of_ends nonempty head last

/-- Whatever is read as an endpoint, the key of the endpoint is read back. -/
theorem readsBack_of_ofKey? {text : String} {endpoint : Endpoint}
    (read : ofKey? text = some endpoint) :
    endpoint.ReadsBack := by
  unfold ofKey? ofKeyChars? at read
  simp only [Option.bind_eq_bind, Option.bind_eq_some_iff, Option.ite_none_left_eq_some] at read
  obtain ⟨_, _, _, _, ⟨chars, _⟩, _, _, _, nonempty, same⟩ := read
  cases same
  rw [List.isEmpty_iff] at nonempty
  rw [readsBack_iff_ends, String.toList_ofList]
  exact ⟨nonempty, head?_strip_ne chars, getLast?_dropEnd_ne ']' _⟩

/-- A key names one endpoint only.  It is read back as that endpoint exactly
if the address is not empty and has no bracket at its ends, and every address
that a text is read with is such an address. -/
theorem keys_read_back :
    Function.Injective key ∧
      (∀ endpoint : Endpoint,
        ofKey? endpoint.key = some endpoint ↔
          endpoint.address ≠ "" ∧
            endpoint.address.toList.head? ≠ some '[' ∧
              endpoint.address.toList.getLast? ≠ some ']') ∧
        ∀ (text : String) (endpoint : Endpoint),
          ofKey? text = some endpoint → ofKey? endpoint.key = some endpoint := by
  refine ⟨key_injective, fun endpoint => ?_, fun text endpoint => readsBack_of_ofKey?⟩
  have nonempty : endpoint.address.toList ≠ [] ↔ endpoint.address ≠ "" :=
    not_congr String.toList_eq_nil_iff
  rw [← nonempty]
  exact readsBack_iff_ends

/-- Signs, leading zeros and needless brackets are read past: the key of the
endpoint that is read is a different text. -/
theorem keys_read_back_padded :
    let padded := "[[::1]]:+07000#007"
    let endpoint : Endpoint := { address := "::1", port := 7000, incarnation := 7 }
    ofKey? padded = some endpoint ∧
      padded ≠ endpoint.key ∧
        ofKey? endpoint.key = some endpoint := by
  intro padded endpoint
  have read : ofKey? padded = some endpoint := by decide
  exact ⟨read, by decide, keys_read_back.2.2 padded endpoint read⟩

/-- A key is read as no other endpoint of its host. -/
theorem eq_of_ofKey?_key {other endpoint : Endpoint}
    (read : ofKey? other.key = some endpoint) (same : other.sameHost endpoint = true) :
    other = endpoint := by
  have readsBack : other.ReadsBack := (readsBack_of_ofKey? read).of_sameHost same
  have found : some other = some endpoint := readsBack.symm.trans read
  exact Option.some.inj found

/-! ## Keys of a host -/

/-- The text is the key of an endpoint on the same host. -/
def keyOfHost (endpoint : Endpoint) (text : String) : Bool :=
  ((Text.splitLast '#' text.toList).bind fun (_, back) =>
      Text.readUnsigned UInt64.size back).any fun incarnation =>
    text == (endpoint.atIncarnation (UInt64.ofNat incarnation)).key

theorem keyOfHost_iff {endpoint : Endpoint} {text : String} :
    endpoint.keyOfHost text = true ↔
      ∃ other : Endpoint, other.sameHost endpoint = true ∧ text = other.key := by
  unfold keyOfHost
  constructor
  · intro known
    generalize (Text.splitLast '#' text.toList).bind _ = read at known
    cases read with
    | none => cases known
    | some incarnation =>
        exact
          ⟨endpoint.atIncarnation (UInt64.ofNat incarnation), sameHost_iff.mpr ⟨rfl, rfl⟩,
            by simpa using known⟩
  · rintro ⟨other, home, rfl⟩
    have incarnation :
        Text.readUnsigned UInt64.size (Text.decimal other.incarnation.toNat) =
          some other.incarnation.toNat :=
      Text.readUnsigned_decimal other.incarnation.toNat_lt
    have split :
        Text.splitLast '#' other.key.toList =
          some (enclosed other.address.toList ++ ':' :: Text.decimal other.port.toNat,
            Text.decimal other.incarnation.toNat) := by
      rw [key, String.toList_ofList, keyChars_eq]
      exact Text.splitLast_append (Text.not_mem_decimal (by decide)) _
    have same : endpoint.atIncarnation other.incarnation = other := by
      obtain ⟨address, port⟩ := sameHost_iff.mp home
      cases other
      simp_all [atIncarnation]
    simp [split, incarnation, same]

theorem keyOfHost_of_sameHost {left right : Endpoint} (same : left.sameHost right = true)
    (text : String) :
    left.keyOfHost text = right.keyOfHost text := by
  rw [Bool.eq_iff_iff, keyOfHost_iff, keyOfHost_iff]
  constructor
  · rintro ⟨other, home, named⟩
    exact ⟨other, sameHost_trans home same, named⟩
  · rintro ⟨other, home, named⟩
    exact ⟨other, sameHost_trans home (sameHost_symm same), named⟩

/-! ## Numeric addresses -/

def isNumeric (c : Char) : Bool :=
  (Text.hexDigit c).isSome || c == '.' || c == ':'

end Endpoint

namespace Text

theorem mem_of_mem_splitAll (mark : Char) {c : Char} :
    ∀ {text : List Char}, c ∈ text → c = mark ∨ ∃ part ∈ splitAll mark text, c ∈ part
  | [], member => absurd member List.not_mem_nil
  | first :: rest, member => by
      have later : c ∈ rest → c = mark ∨ ∃ part ∈ splitAll mark rest, c ∈ part :=
        mem_of_mem_splitAll mark
      unfold splitAll
      cases parts : splitAll mark rest with
      | nil =>
          rcases List.mem_cons.mp member with equal | inRest
          · exact Or.inr ⟨[first], by simp, by simp [equal]⟩
          · rcases later inRest with isMark | ⟨chosen, chosenMember, _⟩
            · exact Or.inl isMark
            · rw [parts] at chosenMember
              exact absurd chosenMember List.not_mem_nil
      | cons part others =>
          rw [parts] at later
          by_cases isMark : first = mark
          · simp only [isMark, if_true]
            rcases List.mem_cons.mp member with equal | inRest
            · exact Or.inl (equal.trans isMark)
            · rcases later inRest with isMark' | ⟨chosen, chosenMember, inside⟩
              · exact Or.inl isMark'
              · exact Or.inr ⟨chosen, List.mem_cons_of_mem _ chosenMember, inside⟩
          · simp only [isMark, if_false]
            rcases List.mem_cons.mp member with equal | inRest
            · exact Or.inr ⟨first :: part, List.mem_cons_self, by simp [equal]⟩
            · rcases later inRest with isMark' | ⟨chosen, chosenMember, inside⟩
              · exact Or.inl isMark'
              · rcases List.mem_cons.mp chosenMember with equal | inOthers
                · subst equal
                  exact Or.inr ⟨first :: chosen, List.mem_cons_self, List.mem_cons_of_mem _ inside⟩
                · exact Or.inr ⟨chosen, List.mem_cons_of_mem _ inOthers, inside⟩

private theorem append_of_splitPair {mark : Char} :
    ∀ {text front back : List Char},
      splitPair mark text = some (front, back) → text = front ++ mark :: mark :: back
  | [], _, _, split => by
      simp [splitPair] at split
  | [_], _, _, split => by
      simp [splitPair] at split
  | first :: second :: rest, front, back, split => by
      unfold splitPair at split
      split at split
      · rename_i marks
        cases split
        simp [marks.1, marks.2]
      · obtain ⟨⟨initial, final⟩, later, equal⟩ := Option.map_eq_some_iff.mp split
        cases equal
        rw [append_of_splitPair later]
        rfl

private theorem foldl_bind_none {α β : Type} (next : α → β → Option α) (rest : List β) :
    rest.foldl (fun value item => value.bind (next · item)) none = none := by
  induction rest with
  | nil => rfl
  | cons _ _ inductionHypothesis => exact inductionHypothesis

private theorem foldl_bind_isSome {α β : Type} {next : α → β → Option α} {item : β} :
    ∀ {items : List β} {start : Option α} {value : α},
      items.foldl (fun value item => value.bind (next · item)) start = some value →
        item ∈ items → ∃ before, (next before item).isSome = true
  | [], _, _, _, member => absurd member List.not_mem_nil
  | first :: rest, start, value, folded, member => by
      rw [List.foldl_cons] at folded
      rcases List.mem_cons.mp member with equal | later
      · subst equal
        cases reached : start.bind (next · item) with
        | none =>
            rw [reached, foldl_bind_none] at folded
            cases folded
        | some after =>
            obtain ⟨before, _, taken⟩ := Option.bind_eq_some_iff.mp reached
            exact ⟨before, by simp [taken]⟩
      · exact foldl_bind_isSome folded later

private theorem digitsValue_isSome {base value : Nat} {digit : Char → Option Nat} {c : Char}
    {text : List Char} (read : digitsValue base digit text = some value) (member : c ∈ text) :
    (digit c).isSome = true := by
  obtain ⟨before, taken⟩ := foldl_bind_isSome read member
  cases found : digit c with
  | some _ => rfl
  | none =>
      rw [found] at taken
      cases taken

end Text

namespace Endpoint

private theorem isNumeric_of_readDigits {bound value : Nat} {c : Char} {text : List Char}
    (read : Text.readDigits 16 bound text = some value) (member : c ∈ text) :
    isNumeric c = true := by
  unfold Text.readDigits at read
  split at read
  · cases read
  · obtain ⟨digits, _⟩ := Option.filter_eq_some_iff.mp read
    simp [isNumeric, Text.digitsValue_isSome digits member]

private theorem isNumeric_of_readDecimal {bound value : Nat} {c : Char} {text : List Char}
    (read : Text.readDecimal bound text = some value) (member : c ∈ text) :
    isNumeric c = true := by
  unfold Text.readDecimal at read
  split at read
  · rename_i digits
    have digit : c.isDigit = true := by
      simp only [Bool.and_eq_true] at digits
      exact List.all_eq_true.mp digits.2 c member
    simp [isNumeric, Text.hexDigit, digit]
  · cases read

private theorem isNumeric_of_mapM {α : Type} {read : List Char → Option α} {c : Char}
    (numeric : ∀ part value, read part = some value → c ∈ part → isNumeric c = true)
    {part : List Char} (inside : c ∈ part) :
    ∀ {parts : List (List Char)} {values : List α},
      parts.mapM read = some values → part ∈ parts → isNumeric c = true
  | [], _, _, member => absurd member List.not_mem_nil
  | first :: rest, values, success, member => by
      simp only [List.mapM_cons, Option.bind_eq_bind, Option.bind_eq_some_iff] at success
      obtain ⟨value, firstRead, others, restRead, _⟩ := success
      rcases List.mem_cons.mp member with equal | later
      · subst equal
        exact numeric part value firstRead inside
      · exact isNumeric_of_mapM numeric inside restRead later

private theorem isNumeric_of_readOctets {octets : List Nat} {c : Char} {text : List Char}
    (read : IpAddress.readOctets text = some octets) (member : c ∈ text) :
    isNumeric c = true := by
  unfold IpAddress.readOctets at read
  simp only at read
  split at read
  · rcases Text.mem_of_mem_splitAll '.' member with equal | ⟨part, partMember, inside⟩
    · simp [isNumeric, equal]
    · refine isNumeric_of_mapM ?_ inside read partMember
      intro part value octet inPart
      unfold IpAddress.readOctet at octet
      split at octet
      · exact isNumeric_of_readDecimal octet inPart
      · cases octet
  · cases read

private theorem isNumeric_of_readGroup {group : Nat} {c : Char} {text : List Char}
    (read : IpAddress.readGroup text = some group) (member : c ∈ text) :
    isNumeric c = true := by
  unfold IpAddress.readGroup at read
  split at read
  · exact isNumeric_of_readDigits read member
  · cases read

private theorem isNumeric_of_readParts {narrowEnd : Bool} {c : Char} {part : List Char}
    (inside : c ∈ part) :
    ∀ {parts : List (List Char)} {groups : List Nat},
      IpAddress.readParts narrowEnd parts = some groups → part ∈ parts → isNumeric c = true
  | [], _, _, member => absurd member List.not_mem_nil
  | [last], groups, read, member => by
      have equal : part = last := List.mem_singleton.mp member
      subst equal
      unfold IpAddress.readParts at read
      split at read
      · rename_i group single
        exact isNumeric_of_readGroup single inside
      · split at read
        · obtain ⟨octets, narrow, _⟩ := Option.map_eq_some_iff.mp read
          exact isNumeric_of_readOctets narrow inside
        · cases read
  | first :: second :: rest, groups, read, member => by
      simp only [IpAddress.readParts, Option.bind_eq_bind, Option.bind_eq_some_iff] at read
      obtain ⟨group, single, others, later, _⟩ := read
      rcases List.mem_cons.mp member with equal | inRest
      · subst equal
        exact isNumeric_of_readGroup single inside
      · exact isNumeric_of_readParts inside later inRest

private theorem isNumeric_of_readRun {narrowEnd : Bool} {groups : List Nat} {c : Char}
    {text : List Char} (read : IpAddress.readRun narrowEnd text = some groups)
    (member : c ∈ text) :
    isNumeric c = true := by
  unfold IpAddress.readRun at read
  split at read
  · rename_i empty
    rw [List.isEmpty_iff.mp empty] at member
    exact absurd member List.not_mem_nil
  · rcases Text.mem_of_mem_splitAll ':' member with equal | ⟨part, partMember, inside⟩
    · simp [isNumeric, equal]
    · exact isNumeric_of_readParts inside read partMember

private theorem isNumeric_of_readGroups {groups : List Nat} {c : Char} {text : List Char}
    (read : IpAddress.readGroups text = some groups) (member : c ∈ text) :
    isNumeric c = true := by
  unfold IpAddress.readGroups at read
  split at read
  · obtain ⟨parts, _⟩ := Option.filter_eq_some_iff.mp read
    rcases Text.mem_of_mem_splitAll ':' member with equal | ⟨part, partMember, inside⟩
    · simp [isNumeric, equal]
    · exact isNumeric_of_readParts inside parts partMember
  · rename_i front back split
    simp only [Option.bind_eq_bind, Option.bind_eq_some_iff] at read
    obtain ⟨head, frontRead, tail, backRead, _⟩ := read
    rw [Text.append_of_splitPair split] at member
    rcases List.mem_append.mp member with inFront | inBack
    · exact isNumeric_of_readRun frontRead inFront
    · simp only [List.mem_cons] at inBack
      rcases inBack with equal | equal | later
      · simp [isNumeric, equal]
      · simp [isNumeric, equal]
      · exact isNumeric_of_readRun backRead later

theorem isNumeric_of_ofChars? {ip : IpAddress} {c : Char} {text : List Char}
    (read : IpAddress.ofChars? text = some ip) (member : c ∈ text) :
    isNumeric c = true := by
  unfold IpAddress.ofChars? at read
  split at read
  · rename_i octets narrow
    exact isNumeric_of_readOctets narrow member
  · obtain ⟨groups, wide, _⟩ := Option.map_eq_some_iff.mp read
    exact isNumeric_of_readGroups wide member

/-- The address can be dialled: it is the text of an address of either
family. -/
def HasNumericAddress (endpoint : Endpoint) : Prop :=
  (IpAddress.ofString? endpoint.address).isSome = true

instance (endpoint : Endpoint) : Decidable endpoint.HasNumericAddress :=
  inferInstanceAs (Decidable (_ = true))

theorem HasNumericAddress.isNumeric {endpoint : Endpoint}
    (numeric : endpoint.HasNumericAddress) {c : Char}
    (member : c ∈ endpoint.address.toList) :
    Endpoint.isNumeric c = true := by
  obtain ⟨_, read⟩ := Option.isSome_iff_exists.mp numeric
  exact isNumeric_of_ofChars? read member

theorem HasNumericAddress.readsBack {endpoint : Endpoint}
    (numeric : endpoint.HasNumericAddress) :
    endpoint.ReadsBack := by
  apply readsBack_of_ends
  · intro empty
    have unreadable : IpAddress.ofChars? [] = none := by decide
    unfold HasNumericAddress IpAddress.ofString? at numeric
    rw [empty, unreadable] at numeric
    cases numeric
  · intro head
    have inside := numeric.isNumeric (List.mem_of_head? head)
    revert inside
    decide
  · intro last
    have inside := numeric.isNumeric (List.mem_of_getLast? last)
    revert inside
    decide

/-- The key of an endpoint with a numeric address has no bar. -/
theorem HasNumericAddress.bar_not_mem_key {endpoint : Endpoint}
    (numeric : endpoint.HasNumericAddress) :
    '|' ∉ endpoint.key.toList := by
  rw [key, String.toList_ofList, keyChars_eq]
  intro member
  have outside : '|' ∉ enclosed endpoint.address.toList := by
    intro inside
    have inAddress : '|' ∈ endpoint.address.toList := by
      unfold enclosed at inside
      split at inside <;> simpa using inside
    have allowed := numeric.isNumeric inAddress
    revert allowed
    decide
  simp only [List.mem_append, List.mem_cons] at member
  rcases member with (inAddress | isColon | inPort) | isHash | inIncarnation
  · exact outside inAddress
  · cases isColon
  · exact Text.not_mem_decimal (by decide) inPort
  · cases isHash
  · exact Text.not_mem_decimal (by decide) inIncarnation

theorem HasNumericAddress.of_sameHost {left right : Endpoint}
    (numeric : right.HasNumericAddress) (same : left.sameHost right = true) :
    left.HasNumericAddress := by
  unfold HasNumericAddress
  rw [(sameHost_iff.mp same).1]
  exact numeric

end Endpoint

end Roster
