/-!
# Blank characters and trimming

A character is **blank** when it has the Unicode property `White_Space`; there are 25 of them.

* `isBlank`: the class;
* `stripStart`, `stripEnd`, `strip`: a list of characters without its blank ends;
* `trim`: the same for a string.
-/

namespace SelectQuery.Text

/-- The characters of the Unicode property `White_Space`. -/
def isBlank (c : Char) : Bool :=
  let n := c.toNat
  (0x09 ≤ n && n ≤ 0x0D) || n == 0x20 || n == 0x85 || n == 0xA0 || n == 0x1680 ||
    (0x2000 ≤ n && n ≤ 0x200A) || n == 0x2028 || n == 0x2029 || n == 0x202F || n == 0x205F ||
    n == 0x3000

/-- Characters without the blanks in front. -/
def stripStart (cs : List Char) : List Char := cs.dropWhile isBlank

/-- Characters without the blanks at the end. -/
def stripEnd (cs : List Char) : List Char := (cs.reverse.dropWhile isBlank).reverse

/-- Characters without the blanks at both ends. -/
def strip (cs : List Char) : List Char := stripEnd (stripStart cs)

/-- A text without the blanks at both ends. -/
def trim (s : String) : String := String.ofList (strip s.toList)

/-- A text of blanks only, the empty text among them. -/
def isBlankText (s : String) : Bool := s.toList.all isBlank

@[simp] theorem toList_trim (s : String) : (trim s).toList = strip s.toList := by simp [trim]

theorem stripStart_append_cons {c : Char} (h : isBlank c = false) (before after : List Char) :
    stripStart (before ++ c :: after) = stripStart before ++ c :: after := by
  unfold stripStart
  rw [List.dropWhile_append, List.dropWhile_cons_of_neg (by simp [h])]
  split
  next hempty => rw [List.isEmpty_iff.mp hempty, List.nil_append]
  next => rfl

theorem stripStart_eq_self_iff {cs : List Char} :
    stripStart cs = cs ↔ ∀ c ∈ cs.head?, isBlank c = false := by
  cases cs with
  | nil => simp [stripStart]
  | cons c rest =>
    cases hc : isBlank c with
    | false => exact iff_of_true (stripStart_append_cons hc [] rest) (by simpa using hc)
    | true =>
      -- fewer characters are left
      have hle : (stripStart rest).length ≤ rest.length := (List.dropWhile_sublist _).length_le
      have hstrip : stripStart (c :: rest) = stripStart rest := List.dropWhile_cons_of_pos hc
      refine iff_of_false (fun h => ?_) (by simp [hc])
      rw [hstrip] at h
      rw [h, List.length_cons] at hle
      omega

theorem stripEnd_append_cons {c : Char} (h : isBlank c = false) (before after : List Char) :
    stripEnd (before ++ c :: after) = before ++ c :: stripEnd after := by
  have hback := stripStart_append_cons h after.reverse before.reverse
  unfold stripStart at hback
  simp [stripEnd, hback]

/-- Trimming leaves a word without blanks alone, with all that stands between it and the ends. -/
theorem strip_append {word : List Char} (hne : word ≠ []) (h : ∀ c ∈ word, isBlank c = false)
    (before after : List Char) :
    strip (before ++ word ++ after) = stripStart before ++ word ++ stripEnd after := by
  have hstart : stripStart (before ++ word ++ after) = stripStart before ++ word ++ after := by
    obtain ⟨c, rest, rfl⟩ := List.exists_cons_of_ne_nil hne
    simpa using stripStart_append_cons (h c List.mem_cons_self) before (rest ++ after)
  obtain ⟨front, c, rfl⟩ : ∃ front c, word = front ++ [c] :=
    ⟨_, _, (List.dropLast_concat_getLast hne).symm⟩
  have hend := stripEnd_append_cons (h c (by simp)) (stripStart before ++ front) after
  rw [strip, hstart]
  simpa using hend

end SelectQuery.Text
