import Roster.Proofs.SortedMap
import Roster.Tags

/-!
# Tags are read back

The stored form of a set of tags is read back as the same set, whatever
characters the tags have.
-/

namespace Roster

namespace Tags

/-- A character in front of a quoted text that was read. -/
def before (c : Char) (read : Option (List Char × List Char)) :
    Option (List Char × List Char) :=
  read.map fun (text, rest) => (c :: text, rest)

private theorem bind_eq_before (c : Char) (read : Option (List Char × List Char)) :
    (do
      let (text, rest) ← read
      return (c :: text, rest)) = before c read := by
  cases read <;> rfl

/-- A control character is four digits behind its mark. -/
private theorem readQuoted_hex :
    ∀ code : Fin 32, ∃ first second third fourth,
      Text.hex 4 code = [first, second, third, fourth] ∧
        (unit? [first, second, third, fourth] >>= single?) = some (Char.ofNat code) := by
  intro code
  have digits :
      ∀ code : Fin 32, Text.hex 4 code.val =
        [((Text.hex 4 code.val)[0]?).getD ' ', ((Text.hex 4 code.val)[1]?).getD ' ',
          ((Text.hex 4 code.val)[2]?).getD ' ', ((Text.hex 4 code.val)[3]?).getD ' '] := by
    decide
  have read :
      ∀ code : Fin 32, (unit? (Text.hex 4 code.val) >>= single?) = some (Char.ofNat code) := by
    decide
  refine ⟨_, _, _, _, digits code, ?_⟩
  rw [← digits code]
  exact read code

private theorem readQuoted_escaped {letter c : Char} (stands : unescape? letter = some c)
    (notUnit : letter ≠ 'u') (more : List Char) :
    readQuoted ('\\' :: letter :: more) = before c (readQuoted more) := by
  rw [readQuoted.eq_def]
  split
  · rename_i equal
    cases equal
  · rename_i equal
    cases equal
  · rename_i equal
    cases equal
    exact absurd rfl notUnit
  · rename_i equal
    cases equal
    rw [stands]
    exact bind_eq_before c (readQuoted more)
  · rename_i notEscaped equal
    cases equal
    exact absurd rfl (notEscaped _ _ rfl)

private theorem readQuoted_unit {first second third fourth c : Char}
    (stands : (unit? [first, second, third, fourth] >>= single?) = some c)
    (more : List Char) :
    readQuoted ('\\' :: 'u' :: first :: second :: third :: fourth :: more) =
      before c (readQuoted more) := by
  rw [readQuoted.eq_def]
  simp only [stands]
  rfl

private theorem readQuoted_plain {c : Char} (printed : ¬ c.toNat < 32) (notSlash : c ≠ '\\')
    (notQuote : c ≠ '"') (more : List Char) :
    readQuoted (c :: more) = before c (readQuoted more) := by
  rw [readQuoted.eq_def]
  split
  · rename_i equal
    cases equal
  · rename_i equal
    cases equal
    exact absurd rfl notQuote
  · rename_i equal
    cases equal
    exact absurd rfl notSlash
  · rename_i equal
    cases equal
    exact absurd rfl notSlash
  · rename_i equal
    cases equal
    rw [if_neg (by simp [printed, notSlash])]
    rfl

private theorem readQuoted_escape (c : Char) (more : List Char) :
    readQuoted (escape c ++ more) = before c (readQuoted more) := by
  unfold escape
  split
  · exact readQuoted_escaped rfl (by decide) more
  · exact readQuoted_escaped rfl (by decide) more
  · exact readQuoted_escaped rfl (by decide) more
  · exact readQuoted_escaped rfl (by decide) more
  · exact readQuoted_escaped rfl (by decide) more
  · rename_i notQuote notSlash _ _ _
    have ofCode : Char.ofNat c.toNat = c := Char.ofNat_toNat c
    by_cases backspace : c.toNat = 8
    · rw [if_pos backspace]
      exact readQuoted_escaped (by rw [← ofCode, backspace]; rfl) (by decide) more
    by_cases formFeed : c.toNat = 12
    · rw [if_neg backspace, if_pos formFeed]
      exact readQuoted_escaped (by rw [← ofCode, formFeed]; rfl) (by decide) more
    by_cases control : c.toNat < 32
    · rw [if_neg backspace, if_neg formFeed, if_pos control]
      obtain ⟨first, second, third, fourth, digits, stands⟩ := readQuoted_hex ⟨c.toNat, control⟩
      rw [ofCode] at stands
      rw [digits]
      exact readQuoted_unit stands more
    · rw [if_neg backspace, if_neg formFeed, if_neg control]
      exact readQuoted_plain control notSlash notQuote more

private theorem readQuoted_flatMap_escape (text more : List Char) :
    readQuoted (text.flatMap escape ++ '"' :: more) = some (text, more) := by
  induction text with
  | nil => rfl
  | cons c rest inductionHypothesis =>
      rw [List.flatMap_cons, List.append_assoc, readQuoted_escape, inductionHypothesis]
      rfl

/-! ## Lists of texts -/

def listed (items : List String) : List Char :=
  ((items.map quote).intersperse [',']).flatten

theorem listed_cons (item : String) :
    ∀ others : List String, others ≠ [] →
      listed (item :: others) = quote item ++ ',' :: listed others
  | [], nonempty => absurd rfl nonempty
  | other :: rest, _ => by
      simp [listed]

private theorem skipBlanks_quote (item : String) (more : List Char) :
    skipBlanks (quote item ++ more) = '"' :: (item.toList.flatMap escape ++ '"' :: more) := by
  simp [skipBlanks, quote]

private theorem readItems_listed :
    ∀ (items : List String) (fuel : Nat) (more : List Char),
      items ≠ [] → items.length ≤ fuel →
        readItems fuel (listed items ++ ']' :: more) = some (items, more)
  | [], _, _, nonempty, _ => absurd rfl nonempty
  | _ :: _, 0, _, _, short => by
      simp at short
  | [item], fuel + 1, more, _, _ => by
      have single : listed [item] = quote item := by
        simp [listed]
      rw [readItems, single, skipBlanks_quote]
      simp [readQuoted_flatMap_escape, skipBlanks]
  | item :: other :: rest, fuel + 1, more, _, short => by
      have later :=
        readItems_listed (other :: rest) fuel more (by simp)
          (by simpa using Nat.le_of_succ_le_succ short)
      rw [readItems, listed_cons item (other :: rest) (by simp), List.append_assoc,
        skipBlanks_quote]
      simp [readQuoted_flatMap_escape, skipBlanks, later]

private theorem length_le_length_listed :
    ∀ items : List String, items.length ≤ (listed items).length
  | [] => Nat.zero_le _
  | [item] => by
      simp [listed, quote]
  | item :: other :: rest => by
      have later := length_le_length_listed (other :: rest)
      rw [listed_cons item (other :: rest) (by simp)]
      simp only [List.length_cons, List.length_append] at later ⊢
      omega

private theorem ofChars?_listed (items : List String) :
    ofChars? ('[' :: (listed items ++ [']'])) = some items := by
  cases items with
  | nil => rfl
  | cons item others =>
      have enough : (item :: others).length ≤ (listed (item :: others) ++ [']']).length := by
        rw [List.length_append]
        exact Nat.le_trans (length_le_length_listed _) (Nat.le_add_right _ _)
      have read := readItems_listed (item :: others) _ [] (by simp) enough
      have start :
          ∃ rest, skipBlanks (listed (item :: others) ++ [']']) = '"' :: rest := by
        cases others with
        | nil =>
            have single : listed [item] = quote item := by
              simp [listed]
            exact ⟨_, by
              rw [single]
              exact skipBlanks_quote item _⟩
        | cons other rest =>
            exact ⟨_, by
              rw [listed_cons item (other :: rest) (by simp), List.append_assoc]
              exact skipBlanks_quote item _⟩
      obtain ⟨rest, start⟩ := start
      have opening :
          skipBlanks ('[' :: (listed (item :: others) ++ [']'])) =
            '[' :: (listed (item :: others) ++ [']']) := by
        simp [skipBlanks]
      unfold ofChars?
      rw [opening]
      simp only [start, read]
      rfl

/-- The stored form of tags is read back as the tags. -/
theorem ofText_toText (tags : Tags) : ofText tags.toText = tags := by
  have stored : tags.toText.toList = '[' :: (listed tags.keys ++ [']']) := by
    simp [toText, listed]
  rw [ofText, stored, ofChars?_listed]
  exact SortedSet.ofList_keys tags

end Tags

end Roster
