/-
  File paths and their URIs, there and back.

  A path becomes a URI byte by byte: a byte stands for itself or is written as an escape. An escape
  reads back as its byte, and nothing that stands for itself looks like the beginning of one
  (`decode?_encode`). What is written holds no byte that would end the path early: no question mark,
  and no control byte, which no URI may hold (`clean_of_mem_encode`). So the URI is taken apart
  where it was put together, and the path comes out again (`path_ofPath`), but for a drive letter in
  front, from which the slash is taken away.
-/
import Mathlib.Data.List.TakeWhile
import MarkupLint.Path.Basic
import MarkupLint.Path.Uri

namespace MarkupLint.Uri

open Ascii

variable {b c : UInt8} {p q r x : Bytes}

/-! ## Escapes -/

/-- What can be checked of the 256 bytes holds of every byte. -/
theorem forall_byte {f : UInt8 → Bool} (h : ∀ n : Fin 256, f (.ofFin n) = true) (b : UInt8) :
    f b = true :=
  h b.toFin

/-- The two digits of an escape give its byte back. -/
theorem hexValue?_hexDigit (b : UInt8) :
    hexValue? (hexDigit (b / 16)) = some (b / 16) ∧ hexValue? (hexDigit (b % 16)) = some (b % 16) ∧
      b / 16 * 16 + b % 16 = b := by
  have h := forall_byte (f := fun b => hexValue? (hexDigit (b / 16)) = some (b / 16) &&
    hexValue? (hexDigit (b % 16)) = some (b % 16) && b / 16 * 16 + b % 16 = b) (by decide +kernel) b
  simpa [and_assoc] using h

theorem decode?_cons_of_ne (h : b ≠ percent) (r : Bytes) :
    decode? (b :: r) = (decode? r).map (b :: ·) := by
  rw [decode?.eq_def]
  simp only [if_neg h]

/-- An escape is read as its byte. -/
theorem decode?_escape (b : UInt8) (r : Bytes) :
    decode? (percent :: hexDigit (b / 16) :: hexDigit (b % 16) :: r) =
      (decode? r).map (b :: ·) := by
  obtain ⟨hhigh, hlow, hb⟩ := hexValue?_hexDigit b
  rw [decode?, if_pos rfl]
  simp only [hhigh, hlow]
  cases decode? r with
  | none => rfl
  | some t => simp [hb]

/-- No byte that stands for itself begins an escape. -/
theorem ne_percent_of_isPlain (h : isPlain b = true) : b ≠ percent := by
  rintro rfl
  exact absurd h (by decide +kernel)

theorem encode_cons_of_plain (h : isPlain b = true) (r : Bytes) :
    encode (b :: r) = b :: encode r := by
  simp [encode, h]

theorem encode_cons_of_not_plain (h : isPlain b = false) (r : Bytes) :
    encode (b :: r) = percent :: hexDigit (b / 16) :: hexDigit (b % 16) :: encode r := by
  simp [encode, h]

/-- What is written for a path reads back as the path. -/
theorem decode?_encode (p : Bytes) : decode? (encode p) = some p := by
  induction p with
  | nil => rfl
  | cons b r ih =>
    -- byte by byte, as they are written
    cases hb : isPlain b with
    | true =>
      rw [encode_cons_of_plain hb, decode?_cons_of_ne (ne_percent_of_isPlain hb), ih]
      rfl
    | false =>
      rw [encode_cons_of_not_plain hb, decode?_escape, ih]
      rfl

/-- What is written for a path holds no control byte and no question mark. -/
theorem clean_of_mem_encode (h : b ∈ encode p) : isControl b = false ∧ b ≠ question := by
  obtain ⟨c, -, hb⟩ := List.mem_flatMap.mp h
  have hc := forall_byte (f := fun c =>
    (if isPlain c then [c] else [percent, hexDigit (c / 16), hexDigit (c % 16)]).all
      fun b => !isControl b && b != question) (by decide +kernel) c
  simpa using List.all_eq_true.mp hc b hb

/-! ## Taking the URI of a file apart -/

theorem scheme?_file (x : Bytes) :
    scheme? (Bytes.ofString "file://" ++ x) = some (Bytes.ofString "file", slash :: slash :: x) :=
  rfl

/-- A URI without a host, whose path is written in bytes that URIs may hold. -/
theorem split?_file (hx : x.head? = some slash)
    (hclean : ∀ b ∈ x, isControl b = false ∧ b ≠ question) :
    split? (Bytes.ofString "file://" ++ x) =
      (decode? x).map fun p => (Bytes.ofString "file", p) := by
  have hall : ∀ b ∈ Bytes.ofString "file://" ++ x, isControl b = false ∧ b ≠ question := by
    intro b hb
    rcases List.mem_append.mp hb with hb | hb
    · have hlead : (Bytes.ofString "file://").all (fun b => !isControl b && b != question) =
          true := by decide
      simpa using List.all_eq_true.mp hlead b hb
    · exact hclean b hb
  have hcontrol : (Bytes.ofString "file://" ++ x).any isControl = false :=
    List.any_eq_false.mpr fun b hb => by simp [(hall b hb).1]
  have hquery : (slash :: slash :: x).takeWhile (· != question) = slash :: slash :: x := by
    refine List.takeWhile_eq_self_iff.mpr fun b hb => ?_
    have hmem : b ∈ Bytes.ofString "file://" ++ x :=
      List.mem_append_right (Bytes.ofString "file:") hb
    simpa using (hall b hmem).2
  -- nothing stands between the two slashes and the path
  have hauthority : x.takeWhile (· != slash) = [] := by
    cases x with
    | nil => rfl
    | cons b r =>
      obtain rfl : b = slash := Option.some.inj hx
      rfl
  have hempty : (Bytes.ofString "file://" ++ x).isEmpty = false := rfl
  have hstar : Bytes.ofString "file://" ++ x ≠ [42] :=
    fun h => List.cons_ne_nil _ _ (List.cons.inj h).2
  have hlead : (!(Bytes.ofString "file").isEmpty && decide ((slash :: x).head? = some slash)) =
      true := rfl
  unfold split?
  rw [hempty, hcontrol, if_neg (by simp), if_neg hstar, scheme?_file]
  simp only [hquery]
  rw [if_neg (by simp), if_pos hlead]
  simp only [List.drop_succ_cons, List.drop_zero, hauthority]
  rw [if_pos (by decide)]
  rfl

/-! ## There and back -/

/-- The path begins with a slash, a letter and a colon, and goes on behind them. -/
def HasDriveSlash (p : Bytes) : Prop :=
  4 ≤ p.length ∧ p[0]? = some slash ∧ p[1]?.any isLetter = true ∧ p[2]? = some colon

instance : Decidable (HasDriveSlash p) :=
  inferInstanceAs (Decidable (4 ≤ p.length ∧ p[0]? = some slash ∧ p[1]?.any isLetter = true ∧
    p[2]? = some colon))

theorem hasDriveSlash_iff :
    HasDriveSlash p ↔ ∃ c r, p = slash :: c :: colon :: r ∧ isLetter c = true ∧ r ≠ [] := by
  constructor
  · rintro ⟨hlen, h0, h1, h2⟩
    match p, hlen with
    | a :: c :: d :: e :: r, _ =>
      obtain rfl : a = slash := Option.some.inj h0
      obtain rfl : d = colon := Option.some.inj h2
      exact ⟨c, e :: r, rfl, h1, List.cons_ne_nil _ _⟩
  · rintro ⟨c, r, rfl, hc, hr⟩
    have hlen := List.length_pos_iff.mpr hr
    exact ⟨by simp; omega, rfl, hc, rfl⟩

/-- The slash before a drive is dropped, and the letter is put into upper case. -/
theorem dropDriveSlash_of_drive (hc : isLetter c = true) (hr : r ≠ []) :
    dropDriveSlash (slash :: c :: colon :: r) = upper c :: colon :: r := by
  have hlen := List.length_pos_iff.mpr hr
  simp [dropDriveSlash, hasDrive, hc]
  omega

theorem dropDriveSlash_of_not (h : ¬ HasDriveSlash p) : dropDriveSlash p = p := by
  unfold dropDriveSlash
  split
  · rename_i a b r
    -- whatever passes the check for a drive has one
    refine if_neg fun hdrive => h ?_
    simp only [Bool.and_eq_true, decide_eq_true_eq] at hdrive
    obtain ⟨⟨hlen, rfl⟩, hdrive⟩ := hdrive
    cases r with
    | nil => exact absurd hlen (by simp)
    | cons d r =>
      simp only [hasDrive, Bool.and_eq_true, decide_eq_true_eq] at hdrive
      exact ⟨hlen, rfl, hdrive.1, by rw [hdrive.2]; rfl⟩
  · rfl

/-- The URI of a path that starts at the root names this path, but for a slash before a drive. -/
theorem path_ofPath (habs : Path.isAbsolute p = true) :
    path (ofPath p) = .ok (dropDriveSlash p) := by
  obtain ⟨r, rfl⟩ : ∃ r, p = slash :: r := by
    cases p with
    | nil => exact absurd habs (by decide)
    | cons b r => exact ⟨r, by rw [show b = slash by simpa [Path.isAbsolute] using habs]⟩
  -- a path from the root does not begin with a drive itself
  have hdrive : hasDrive (slash :: r) = false := by
    cases r <;> rfl
  have huri : ofPath (slash :: r) = Bytes.ofString "file://" ++ encode (slash :: r) := by
    have hstar : slash :: r ≠ [42] := by simp [slash]
    simp [ofPath, hdrive, hstar]
  have hhead : (encode (slash :: r)).head? = some slash := by
    rw [encode_cons_of_plain (by decide +kernel)]
    rfl
  unfold path
  rw [huri, split?_file hhead fun b hb => clean_of_mem_encode hb, decode?_encode]
  rfl

/-- **Paths and URIs, there and back.** The URI of a path that starts at the root, whatever bytes
    the path is made of, names a file again. It is the same path, unless it begins with a drive:
    then it is the path without its first slash and with the drive letter in upper case. So two
    paths without a drive have different URIs. -/
theorem path_uri_roundTrip (habs : Path.isAbsolute p = true) :
    (¬ HasDriveSlash p → path (ofPath p) = .ok p) ∧
    (HasDriveSlash p → ∃ c r, p = slash :: c :: r ∧ path (ofPath p) = .ok (upper c :: r)) ∧
    ∀ q, Path.isAbsolute q = true → ¬ HasDriveSlash p → ¬ HasDriveSlash q → ofPath p = ofPath q →
      p = q := by
  refine ⟨fun h => ?_, fun h => ?_, fun q hq hp hq' heq => ?_⟩
  · rw [path_ofPath habs, dropDriveSlash_of_not h]
  · obtain ⟨c, r, rfl, hc, hr⟩ := hasDriveSlash_iff.mp h
    exact ⟨c, colon :: r, rfl, by rw [path_ofPath habs, dropDriveSlash_of_drive hc hr]⟩
  · have hpath := path_ofPath habs
    rw [heq, path_ofPath hq, dropDriveSlash_of_not hp, dropDriveSlash_of_not hq'] at hpath
    exact (Except.ok.inj hpath).symm

/-- Marks of escapes and queries, a control byte and one that is no character. -/
theorem path_uri_roundTrip_anyBytes :
    Path.isAbsolute [47, 47, 37, 63, 35, 32, 0, 255, 47] = true ∧
    path (ofPath [47, 47, 37, 63, 35, 32, 0, 255, 47]) = .ok [47, 47, 37, 63, 35, 32, 0, 255, 47] :=
  ⟨rfl, (path_uri_roundTrip rfl).1 (by decide)⟩

end MarkupLint.Uri
