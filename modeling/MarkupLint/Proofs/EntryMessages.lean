/-
  What a user reads about the entries of an outside linter.

  An entry becomes an issue whose message is the text of the entry and whose code is made of its
  number. The code then decides what is shown: five codes have a wording of their own, filled with
  details of the issue, and an entry has no details. Different numbers have different codes
  (`threePlaces_injective`), so there are just five numbers behind which the text of an entry is
  lost.
-/
import MarkupLint.Diagnosis
import MarkupLint.LintOutput
import MarkupLint.Proofs.Digits

namespace MarkupLint

/-! ## White space around a text -/

namespace Blank

/-- The first text without the white space around it is the second one. -/
structure TrimmedTo (cs ts : List Char) : Prop where
  around : ∃ lead trail, cs = lead ++ ts ++ trail ∧ (∀ c ∈ lead, isBlank c = true) ∧
    ∀ c ∈ trail, isBlank c = true
  head : ∀ c, ts.head? = some c → isBlank c = false
  last : ∀ c, ts.getLast? = some c → isBlank c = false

/-- What is left begins with something that is not white space. -/
theorem isBlank_of_head?_dropWhile {cs : List Char} {c : Char}
    (h : (cs.dropWhile isBlank).head? = some c) :
    isBlank c = false := by
  have hnot := List.head?_dropWhile_not isBlank cs
  rw [h] at hnot
  exact hnot

theorem isBlank_of_mem_takeWhile {cs : List Char} {c : Char} (h : c ∈ cs.takeWhile isBlank) :
    isBlank c = true :=
  List.all_eq_true.mp List.all_takeWhile c h

/-- Trimming takes off the white space on both sides, and no more. -/
theorem trimmedTo_trimChars (cs : List Char) : TrimmedTo cs (trimChars cs) := by
  have hback := List.takeWhile_append_dropWhile (p := isBlank) (l := (cs.dropWhile isBlank).reverse)
  -- behind the white space in front stands what stays, and then the white space behind it
  have hsplit : cs.dropWhile isBlank =
      trimChars cs ++ ((cs.dropWhile isBlank).reverse.takeWhile isBlank).reverse := by
    rw [trimChars, ← List.reverse_append, hback, List.reverse_reverse]
  refine ⟨⟨cs.takeWhile isBlank, ((cs.dropWhile isBlank).reverse.takeWhile isBlank).reverse, ?_,
    fun c hc => isBlank_of_mem_takeWhile hc, ?_⟩, ?_, ?_⟩
  · rw [List.append_assoc, ← hsplit, List.takeWhile_append_dropWhile]
  · intro c hc
    exact isBlank_of_mem_takeWhile (List.mem_reverse.mp hc)
  · intro c hc
    have hfirst : (cs.dropWhile isBlank).head? = some c := by
      rw [hsplit, List.head?_append, hc]
      rfl
    exact isBlank_of_head?_dropWhile hfirst
  · intro c hc
    rw [trimChars, List.getLast?_reverse] at hc
    exact isBlank_of_head?_dropWhile hc

theorem TrimmedTo.length_le {cs ts : List Char} (h : TrimmedTo cs ts) : ts.length ≤ cs.length := by
  obtain ⟨lead, trail, rfl, -⟩ := h.around
  simp only [List.length_append]
  omega

/-- A text that is not all white space keeps something. -/
theorem trimChars_ne_nil {cs : List Char} (h : ∃ c ∈ cs, isBlank c = false) :
    trimChars cs ≠ [] := by
  intro hnil
  obtain ⟨lead, trail, hcs, hlead, htrail⟩ := (trimmedTo_trimChars cs).around
  rw [hnil, List.append_nil] at hcs
  obtain ⟨c, hc, hblank⟩ := h
  rw [hcs] at hc
  have hall : isBlank c = true := (List.mem_append.mp hc).elim (hlead c) (htrail c)
  rw [hblank] at hall
  exact absurd hall (by decide)

end Blank

/-! ## Numbers and codes -/

/-- The integer that an optional minus and digits denote. -/
def placesValue : List Char → Int
  | '-' :: ds => -(Nat.ofDigitChars 10 ds 0 : Int)
  | ds => Nat.ofDigitChars 10 ds 0

/-- Digits alone are no minus. -/
theorem placesValue_of_digits {ds : List Char} (h : ∀ c ∈ ds, c.isDigit = true) :
    placesValue ds = Nat.ofDigitChars 10 ds 0 := by
  unfold placesValue
  split
  · have hdigit := h '-' List.mem_cons_self
    exact absurd hdigit (by decide)
  · rfl

/-- A number is read back from its places, however many they are. -/
theorem placesValue_threePlaces (n : Int) : placesValue (threePlaces n).toList = n := by
  unfold threePlaces
  rw [String.toList_ofList]
  -- the minus stands before the zeros
  by_cases hneg : n < 0
  · rw [if_pos hneg, if_pos hneg]
    show -(Nat.ofDigitChars 10 (List.replicate _ '0' ++ Nat.toDigits 10 n.natAbs) 0 : Int) = n
    rw [ofDigitChars_padded]
    omega
  · rw [if_neg hneg, if_neg hneg, List.nil_append,
      placesValue_of_digits fun c hc => isDigit_of_mem_padded hc, ofDigitChars_padded]
    omega

/-- Different numbers are written differently. -/
theorem threePlaces_injective {m n : Int} (h : threePlaces m = threePlaces n) : m = n := by
  rw [← placesValue_threePlaces m, h, placesValue_threePlaces]

namespace Issue

variable {e : Pattern.LineEntry}

/-- The code of an entry tells its number. -/
theorem number_of_code_ofEntry {n : Int} (h : (ofEntry e).code = "E" ++ threePlaces n) :
    e.number = n := by
  change (if e.number = 0 then "" else "E" ++ threePlaces e.number) = _ at h
  split at h
  · -- an entry without a number has no code at all
    have hletter := congrArg String.toList h
    rw [String.toList_append] at hletter
    exact absurd hletter (by simp)
  · exact threePlaces_injective (by simpa using h)

/-- The codes that have a wording of their own. -/
def wordedCodes : List String := ["E001", "E003", "E011", "E036", "E037"]

/-- The numbers that such codes are made of. -/
def wordedNumbers : List Int := [1, 3, 11, 36, 37]

/-- The five codes are those of the five numbers. -/
theorem wordedCodes_eq : wordedCodes = wordedNumbers.map ("E" ++ threePlaces ·) := by decide

/-- An entry has one of the five codes only by its number. -/
theorem code_ofEntry_worded (h : (ofEntry e).code ∈ wordedCodes) : e.number ∈ wordedNumbers := by
  rw [wordedCodes_eq] at h
  obtain ⟨n, hn, hcode⟩ := List.mem_map.mp h
  rw [number_of_code_ofEntry hcode.symm]
  exact hn

/-- Without a wording of its own, an issue is shown with the message of its reporter. -/
theorem message_of_unworded {i : Issue} (hcode : i.code ∉ wordedCodes) (hmsg : i.msg ≠ "") :
    i.message = i.msg := by
  simp only [wordedCodes, List.mem_cons, List.not_mem_nil, or_false, not_or] at hcode
  obtain ⟨h1, h3, h11, h36, h37⟩ := hcode
  unfold message
  rw [if_neg h1, if_neg h3, if_neg h11, if_neg h36, if_neg h37, if_pos hmsg]

/-- The message of an entry that says something is its text. -/
theorem msg_ofEntry_ne_empty (h : ∃ c ∈ e.text, Blank.isBlank c = false) :
    (ofEntry e).msg ≠ "" := by
  intro hempty
  have hnil : (String.ofList (Blank.trimChars e.text)).toList = [] := congrArg String.toList hempty
  rw [String.toList_ofList] at hnil
  exact Blank.trimChars_ne_nil h hnil

/-- The entry is shown with its text: there is one diagnostic for it, and its message is the text
    without the white space around it. -/
def TextShown (s : Settings) (e : Pattern.LineEntry) : Prop :=
  ∃ d, diagnoseAll s [ofEntry e] = [d] ∧ Blank.TrimmedTo e.text d.message.toList

/-- Behind any other number the text of an entry is shown. -/
theorem textShown_of_unworded (s : Settings) (htext : ∃ c ∈ e.text, Blank.isBlank c = false)
    (hnumber : e.number ∉ wordedNumbers) : TextShown s e := by
  refine ⟨(ofEntry e).diagnose s, rfl, ?_⟩
  show Blank.TrimmedTo e.text (ofEntry e).message.toList
  rw [message_of_unworded (fun h => hnumber (code_ofEntry_worded h)) (msg_ofEntry_ne_empty htext)]
  show Blank.TrimmedTo e.text (String.ofList (Blank.trimChars e.text)).toList
  rw [String.toList_ofList]
  exact Blank.trimmedTo_trimChars e.text

/-- The wording of a code is longer than a text of one character. -/
theorem not_textShown_of_worded {n : Int} (h : n ∈ wordedNumbers) :
    ¬ TextShown {} { number := n, text := ['?'] } := by
  rintro ⟨d, hd, htext⟩
  obtain rfl := (List.cons.inj hd).1
  have hshort := htext.length_le
  simp only [wordedNumbers, List.mem_cons, List.not_mem_nil, or_false] at h
  rcases h with rfl | rfl | rfl | rfl | rfl <;> exact absurd hshort (by decide)

/-- **The text of an entry reaches the user unless its number is that of a worded code.** The
    numbers are told apart for good: behind any number but the five, an entry that says something is
    shown with its text, whatever the text, the place and the settings are, and behind each of the
    five some entry is not. -/
theorem entry_texts_shown_iff (n : Int) :
    (∀ (s : Settings) (e : Pattern.LineEntry), e.number = n →
      (∃ c ∈ e.text, Blank.isBlank c = false) → TextShown s e) ↔
      n ∉ wordedNumbers := by
  constructor
  · intro hshown hn
    exact not_textShown_of_worded hn (hshown {} _ rfl ⟨'?', List.mem_singleton_self _, rfl⟩)
  · rintro hn s e rfl htext
    exact textShown_of_unworded s htext hn

/-- An entry with the number eleven is shown as an issue about no attribute, no value and no
    format. -/
theorem text_lost_behind_eleven :
    (diagnoseAll {}
      [ofEntry { number := 11, line := 3, column := 9, text := "bad value".toList }]).map
      (·.message) =
        ["Value \"\" of attribute \"\" does not respect the format ''"] ∧
      ¬ TextShown {} { number := 11, line := 3, column := 9, text := "bad value".toList } := by
  refine ⟨by decide, ?_⟩
  rintro ⟨d, hd, htext⟩
  obtain rfl := (List.cons.inj hd).1
  exact absurd htext.length_le (by decide)

end Issue
end MarkupLint
