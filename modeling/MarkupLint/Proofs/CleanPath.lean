/-
  Clean paths: what cleaning makes of a path, and how the directory, the name and the ancestors of a
  path are read off its parts.

  A clean path is given by the parts between its slashes, and by whether it starts at the root. Its
  parts are steps upward, which only a relative path has, and then names (`Reduced`). Every path
  that `clean`, `dir` or `join` gives is of this form, and on paths of this form these operations
  are what they should be on lists: `dir` drops the last part (`dir_ofParts`), `join` adds one
  (`join_ofParts`), `base` is the last one (`base_ofParts`). So the directories upward from a path
  are what comes of taking `dir` again and again, until it does not change any more
  (`upward_eq_map_ancestor`).
-/
import MarkupLint.Path.Basic

namespace MarkupLint

/-! ## Splitting -/

namespace Bytes

variable {sep : UInt8} {s t : Bytes}

theorem splitAt_ne_nil (sep : UInt8) (s : Bytes) : splitAt sep s ≠ [] := by
  cases s with
  | nil => simp [splitAt]
  | cons b r =>
    unfold splitAt
    split
    · simp
    · split <;> simp

/-- A separator between two texts splits their pieces. -/
theorem splitAt_append_sep (s t : Bytes) :
    splitAt sep (s ++ sep :: t) = splitAt sep s ++ splitAt sep t := by
  induction s with
  | nil => simp [splitAt]
  | cons b r ih =>
    by_cases hb : b = sep
    · simp [splitAt, hb, ih]
    · obtain ⟨p, ps, hps⟩ := List.exists_cons_of_ne_nil (splitAt_ne_nil sep r)
      simp [splitAt, hb, ih, hps]

/-- A text without a separator is one piece. -/
theorem splitAt_of_not_mem (h : sep ∉ s) : splitAt sep s = [s] := by
  induction s with
  | nil => rfl
  | cons b r ih =>
    rw [List.mem_cons, not_or] at h
    simp [splitAt, Ne.symm h.1, ih h.2]

/-- No piece holds a separator. -/
theorem not_mem_of_mem_splitAt (h : t ∈ splitAt sep s) : sep ∉ t := by
  induction s generalizing t with
  | nil =>
    obtain rfl : t = [] := by simpa [splitAt] using h
    simp
  | cons b r ih =>
    obtain ⟨p, ps, hps⟩ := List.exists_cons_of_ne_nil (splitAt_ne_nil sep r)
    rw [hps] at ih
    by_cases hb : b = sep
    · rw [splitAt, if_pos hb, hps, List.mem_cons] at h
      rcases h with rfl | h
      · simp
      · exact ih h
    · simp only [splitAt, if_neg hb, hps, List.mem_cons] at h
      rcases h with rfl | h
      · rw [List.mem_cons, not_or]
        exact ⟨Ne.symm hb, ih List.mem_cons_self⟩
      · exact ih (List.mem_cons_of_mem p h)

end Bytes

namespace Path

open Ascii

variable {p c : Bytes} {ps qs : List Bytes} {rooted : Bool}

/-! ## Parts -/

/-- What can stand between the slashes of a path without being left out. -/
structure IsPart (c : Bytes) : Prop where
  ne_nil : c ≠ []
  ne_dot : c ≠ dot
  no_slash : slash ∉ c

/-- A part that is no step upward: the name of an entry. -/
structure IsName (c : Bytes) : Prop extends IsPart c where
  ne_dotDot : c ≠ dotDot

theorem isPart_dotDot : IsPart dotDot := ⟨by decide, by decide, by decide⟩

/-- What is left between the slashes is neither empty nor a dot. -/
theorem isPart_of_mem_parts (h : c ∈ parts p) : IsPart c := by
  unfold parts at h
  rw [List.mem_filter, Bool.and_eq_true, Bool.not_eq_true', bne_iff_ne] at h
  obtain ⟨hmem, hne, hdot⟩ := h
  refine ⟨?_, hdot, Bytes.not_mem_of_mem_splitAt hmem⟩
  rintro rfl
  exact absurd hne (by simp)

/-- A slash between two texts separates their parts. -/
theorem parts_append_slash (s t : Bytes) : parts (s ++ slash :: t) = parts s ++ parts t := by
  rw [parts, Bytes.splitAt_append_sep, List.filter_append]
  rfl

theorem parts_of_isPart (h : IsPart c) : parts c = [c] := by
  rw [parts, Bytes.splitAt_of_not_mem h.no_slash, List.filter_eq_self]
  intro d hd
  obtain rfl : d = c := by simpa using hd
  simp [h.ne_nil, h.ne_dot]

/-- One part more goes behind a slash. -/
theorem joinParts_concat (hps : ps ≠ []) : joinParts (ps ++ [c]) = joinParts ps ++ slash :: c := by
  induction ps with
  | nil => exact absurd rfl hps
  | cons d ds ih =>
    cases ds with
    | nil => rfl
    | cons e es =>
      have hrest := ih (by simp)
      simp only [List.cons_append] at hrest ⊢
      simp [joinParts, hrest]

/-- Parts that are put together can be read off again. -/
theorem parts_joinParts (h : ∀ c ∈ ps, IsPart c) : parts (joinParts ps) = ps := by
  induction ps with
  | nil => rfl
  | cons c cs ih =>
    have hc := h c List.mem_cons_self
    have hcs := ih fun d hd => h d (List.mem_cons_of_mem c hd)
    cases cs with
    | nil => exact parts_of_isPart hc
    | cons d ds =>
      rw [joinParts, parts_append_slash, parts_of_isPart hc, hcs]
      · rfl
      · simp

/-- Between the slashes of a clean path there is nothing but its parts. -/
theorem splitAt_joinParts (hps : ps ≠ []) (h : ∀ c ∈ ps, IsPart c) :
    Bytes.splitAt slash (joinParts ps) = ps := by
  induction ps with
  | nil => exact absurd rfl hps
  | cons c cs ih =>
    have hc := Bytes.splitAt_of_not_mem (h c List.mem_cons_self).no_slash
    cases cs with
    | nil => exact hc
    | cons d ds =>
      have hcs := ih (by simp) fun e he => h e (List.mem_cons_of_mem c he)
      rw [joinParts, Bytes.splitAt_append_sep, hc, hcs]
      · rfl
      · simp

theorem joinParts_ne_nil (hps : ps ≠ []) (h : ∀ c ∈ ps, IsPart c) : joinParts ps ≠ [] := by
  intro hnil
  have hsplit := splitAt_joinParts hps h
  rw [hnil] at hsplit
  exact (h [] (hsplit ▸ List.mem_singleton.mpr rfl)).ne_nil rfl

/-- No part begins with a slash. -/
theorem isAbsolute_joinParts (h : ∀ c ∈ ps, IsPart c) : isAbsolute (joinParts ps) = false := by
  cases ps with
  | nil => rfl
  | cons c cs =>
    have hc := h c List.mem_cons_self
    obtain ⟨b, r, rfl⟩ := List.exists_cons_of_ne_nil hc.ne_nil
    have hb : b ≠ slash := by
      rintro rfl
      exact hc.no_slash List.mem_cons_self
    cases cs <;> simp [joinParts, isAbsolute, hb]

/-- A path is made of its parts, from the root or not. -/
theorem parts_ofParts (rooted : Bool) (h : ∀ c ∈ ps, IsPart c) :
    parts (ofParts rooted ps) = ps := by
  cases rooted with
  | true => exact (parts_append_slash [] (joinParts ps)).trans (parts_joinParts h)
  | false =>
    cases ps with
    | nil => rfl
    | cons c cs => exact parts_joinParts h

/-- Whether a path starts at the root does not depend on its parts. -/
theorem isAbsolute_ofParts (rooted : Bool) (h : ∀ c ∈ ps, IsPart c) :
    isAbsolute (ofParts rooted ps) = rooted := by
  cases rooted with
  | true => rfl
  | false =>
    cases ps with
    | nil => rfl
    | cons c cs => exact isAbsolute_joinParts h

/-- Even a path without parts is written: as `/`, or as a dot. -/
theorem ofParts_ne_nil (rooted : Bool) (h : ∀ c ∈ ps, IsPart c) : ofParts rooted ps ≠ [] := by
  cases rooted with
  | true => simp [ofParts]
  | false =>
    cases ps with
    | nil => decide
    | cons c cs => exact joinParts_ne_nil (by simp) h

/-- A path with one part more, unless it had none. -/
theorem ofParts_concat (rooted : Bool) (hps : ps ≠ []) (c : Bytes) :
    ofParts rooted (ps ++ [c]) = ofParts rooted ps ++ slash :: c := by
  cases rooted <;> simp [ofParts, joinParts_concat hps, hps]

/-! ## Clean paths -/

/-- The parts of a clean path: steps upward, none of them from the root, and then names. -/
inductive Reduced (rooted : Bool) : List Bytes → Prop where
  | ups (k : Nat) (h : rooted = true → k = 0) : Reduced rooted (List.replicate k dotDot)
  | snoc {ps : List Bytes} {c : Bytes} : Reduced rooted ps → IsName c → Reduced rooted (ps ++ [c])

theorem reduced_nil : Reduced rooted [] := .ups 0 fun _ => rfl

theorem Reduced.isPart (h : Reduced rooted ps) : ∀ c ∈ ps, IsPart c := by
  induction h with
  | ups k _ =>
    intro c hc
    rw [List.eq_of_mem_replicate hc]
    exact isPart_dotDot
  | snoc _ hname ih =>
    intro c hc
    rcases List.mem_append.mp hc with hc | hc
    · exact ih c hc
    · exact List.mem_singleton.mp hc ▸ hname.toIsPart

/-- The first parts of a clean path are those of a clean path. -/
theorem Reduced.take (h : Reduced rooted ps) (n : Nat) : Reduced rooted (ps.take n) := by
  induction h with
  | ups k hk =>
    rw [List.take_replicate]
    refine .ups _ fun hrooted => ?_
    rw [hk hrooted]
    exact Nat.min_zero n
  | @snoc ps c hps hname ih =>
    by_cases hn : n ≤ ps.length
    · rw [List.take_append_of_le_length hn]
      exact ih
    · rw [List.take_of_length_le (by simp; omega)]
      exact hps.snoc hname

/-- Names may always follow. -/
theorem Reduced.append (hqs : Reduced rooted qs) (h : ∀ c ∈ ps, IsName c) :
    Reduced rooted (qs ++ ps) := by
  induction ps generalizing qs with
  | nil => rwa [List.append_nil]
  | cons c ps ih =>
    rw [← List.singleton_append, ← List.append_assoc]
    exact ih (hqs.snoc (h c List.mem_cons_self)) fun d hd => h d (List.mem_cons_of_mem c hd)

/-- Steps upward come before names. -/
theorem Reduced.exists_names (h : Reduced rooted ps) :
    ∃ k names, ps = List.replicate k dotDot ++ names ∧ (rooted = true → k = 0) ∧
      ∀ c ∈ names, IsName c := by
  induction h with
  | ups k hk => exact ⟨k, [], (List.append_nil _).symm, hk, by simp⟩
  | @snoc ps c _ hname ih =>
    obtain ⟨k, names, rfl, hk, hnames⟩ := ih
    refine ⟨k, names ++ [c], List.append_assoc _ _ _, hk, ?_⟩
    intro d hd
    rcases List.mem_append.mp hd with hd | hd
    · exact hnames d hd
    · exact List.mem_singleton.mp hd ▸ hname

/-- A path from the root has names only. -/
theorem Reduced.isName (h : Reduced true ps) : ∀ c ∈ ps, IsName c := by
  obtain ⟨k, names, rfl, hk, hnames⟩ := h.exists_names
  rw [hk rfl]
  exact hnames

/-- A relative path of steps upward gets one more. -/
theorem push_dotDot_replicate (k : Nat) :
    push false (List.replicate k dotDot) dotDot = List.replicate (k + 1) dotDot := by
  cases k with
  | zero => rfl
  | succ k => rw [List.replicate_succ, push, if_pos rfl]; exact if_pos rfl

/-- Adding a part keeps a path clean. -/
theorem Reduced.push (h : Reduced rooted ps) (hc : IsPart c) :
    Reduced rooted (Path.push rooted ps.reverse c).reverse := by
  by_cases hup : c = dotDot
  · subst hup
    cases h with
    | ups k hk =>
      rw [List.reverse_replicate]
      cases rooted with
      | true =>
        rw [hk rfl]
        exact reduced_nil
      | false =>
        rw [push_dotDot_replicate, List.reverse_replicate]
        exact .ups _ (by simp)
    -- a name in front of the step upward goes away with it
    | @snoc ps d hps hname => simpa [Path.push, hname.ne_dotDot] using hps
  · have hpush : (Path.push rooted ps.reverse c).reverse = ps ++ [c] := by simp [Path.push, hup]
    rw [hpush]
    exact h.snoc ⟨hc, hup⟩

/-- Adding any number of parts keeps a path clean. -/
theorem reduced_foldl (hqs : Reduced rooted qs) (h : ∀ c ∈ ps, IsPart c) :
    Reduced rooted (ps.foldl (push rooted) qs.reverse).reverse := by
  induction ps generalizing qs with
  | nil => simpa using hqs
  | cons c cs ih =>
    have hpush := hqs.push (h c List.mem_cons_self)
    have hrest := ih hpush fun d hd => h d (List.mem_cons_of_mem c hd)
    simpa using hrest

/-- Adding the parts of a clean path one by one gives them back. -/
theorem Reduced.foldl_push (h : Reduced rooted ps) :
    ps.foldl (Path.push rooted) [] = ps.reverse := by
  induction h with
  | ups k hk =>
    cases rooted with
    | true => simp [hk rfl]
    | false =>
      -- relative steps upward pile up, so this is an induction of its own
      induction k with
      | zero => rfl
      | succ k ih =>
        rw [List.replicate_succ', List.foldl_append, ih (by simp), List.reverse_replicate]
        rw [List.foldl_cons, List.foldl_nil, push_dotDot_replicate, ← List.replicate_succ',
          List.reverse_replicate]
  | @snoc ps c _ hname ih => simp [ih, Path.push, hname.ne_dotDot]

/-- Cleaning gives a clean path. -/
theorem exists_clean (p : Bytes) :
    ∃ ps, Reduced (isAbsolute p) ps ∧ clean p = ofParts (isAbsolute p) ps := by
  refine ⟨_, ?_, rfl⟩
  exact reduced_foldl reduced_nil fun c hc => isPart_of_mem_parts hc

/-- Cleaning a path depends on its parts only. -/
theorem clean_of_parts (habs : isAbsolute p = rooted) (hparts : parts p = ps)
    (h : Reduced rooted ps) :
    clean p = ofParts rooted ps := by
  simp only [clean, habs, hparts, h.foldl_push, List.reverse_reverse]

/-- A clean path from the root, of which each place in a tree has one. -/
structure Canonical (p : Bytes) : Prop where
  absolute : isAbsolute p = true
  clean : clean p = p

/-- The canonical paths are those made from the root and of names. -/
theorem canonical_iff : Canonical p ↔ ∃ ps, Reduced true ps ∧ p = ofParts true ps := by
  constructor
  · rintro ⟨habs, hclean⟩
    obtain ⟨ps, hps, heq⟩ := exists_clean p
    rw [habs] at hps heq
    exact ⟨ps, hps, hclean.symm.trans heq⟩
  · rintro ⟨ps, hps, rfl⟩
    have habs := isAbsolute_ofParts true hps.isPart
    exact ⟨habs, clean_of_parts habs (parts_ofParts true hps.isPart) hps⟩

/-! ## Directories and names -/

theorem ne_slash_of_mem_reverse (h : slash ∉ c) : ∀ b ∈ c.reverse, (b != slash) = true := by
  intro b hb
  rw [List.mem_reverse] at hb
  rw [bne_iff_ne]
  rintro rfl
  exact h hb

/-- What is kept of a path ends with its last slash. -/
theorem throughLastSlash_append (s : Bytes) (h : slash ∉ c) :
    throughLastSlash (s ++ slash :: c) = s ++ [slash] := by
  simp [throughLastSlash, List.dropWhile_append_of_pos (ne_slash_of_mem_reverse h)]

theorem throughLastSlash_of_not_mem (h : slash ∉ c) : throughLastSlash c = [] := by
  rw [throughLastSlash, ← List.append_nil c.reverse,
    List.dropWhile_append_of_pos (ne_slash_of_mem_reverse h)]
  rfl

/-- The directory of a clean path has all its parts but the last. -/
theorem dir_ofParts (h : Reduced rooted ps) :
    dir (ofParts rooted ps) = ofParts rooted ps.dropLast := by
  rcases List.eq_nil_or_concat ps with rfl | ⟨qs, c, hps⟩
  · cases rooted <;> rfl
  · rw [List.concat_eq_append] at hps
    subst hps
    have hqs : Reduced rooted qs := by simpa using h.take qs.length
    have hc := h.isPart c (by simp)
    rw [List.dropLast_concat]
    -- with one part only, what is left is the root or the empty text, which cleaning turns to a dot
    by_cases hnil : qs = []
    · subst hnil
      cases rooted with
      | true =>
        have hthrough : throughLastSlash (ofParts true [c]) = [slash] :=
          throughLastSlash_append [] hc.no_slash
        rw [dir, List.nil_append, hthrough]
        rfl
      | false =>
        have hthrough : throughLastSlash (ofParts false [c]) = [] :=
          throughLastSlash_of_not_mem hc.no_slash
        rw [dir, List.nil_append, hthrough]
        rfl
    · rw [dir, ofParts_concat rooted hnil, throughLastSlash_append _ hc.no_slash]
      -- the slash at the end adds no part
      refine clean_of_parts ?_ ?_ hqs
      · have habs := isAbsolute_ofParts rooted hqs.isPart
        obtain ⟨b, r, hbr⟩ := List.exists_cons_of_ne_nil (ofParts_ne_nil rooted hqs.isPart)
        rw [hbr] at habs ⊢
        exact habs
      · rw [parts_append_slash, parts_ofParts rooted hqs.isPart]
        exact List.append_nil qs

/-- A name below a clean path is added to its parts. -/
theorem join_ofParts (h : Reduced rooted ps) (hc : IsName c) :
    join (ofParts rooted ps) c = ofParts rooted (ps ++ [c]) := by
  have hnil := ofParts_ne_nil rooted h.isPart
  obtain ⟨b, r, hbr⟩ := List.exists_cons_of_ne_nil hnil
  have habs := isAbsolute_ofParts rooted h.isPart
  rw [join, if_neg (by simpa using hnil)]
  refine clean_of_parts ?_ ?_ (h.snoc hc)
  · rw [hbr] at habs ⊢
    exact habs
  · rw [parts_append_slash, parts_ofParts rooted h.isPart, parts_of_isPart hc.toIsPart]

/-- The last part of a path is what stands behind its last slash. -/
theorem base_append (s : Bytes) (hc : IsPart c) : base (s ++ slash :: c) = c := by
  have hkept := ne_slash_of_mem_reverse hc.no_slash
  obtain ⟨b, r, hbr⟩ := List.exists_cons_of_ne_nil (show c.reverse ≠ [] by simpa using hc.ne_nil)
  have hb : (b == slash) = false := by
    have := hkept b (by rw [hbr]; exact List.mem_cons_self)
    simpa using this
  -- nothing is cut off the end, since the part does not end in a slash
  have hcut : (s ++ slash :: c).reverse.dropWhile (· == slash) =
      c.reverse ++ slash :: s.reverse := by
    simp [hbr, hb]
  have htake : (c.reverse ++ slash :: s.reverse).takeWhile (· != slash) = c.reverse := by
    rw [List.takeWhile_append_of_pos hkept]
    simp
  rw [base, if_neg (by simp)]
  simp only [hcut]
  rw [if_neg (by simp), htake, List.reverse_reverse]

/-- The name of a clean path is its last part. -/
theorem base_ofParts (hc : IsPart c) : base (ofParts true (ps ++ [c])) = c := by
  by_cases hnil : ps = []
  · subst hnil
    exact base_append [] hc
  · rw [ofParts_concat true hnil]
    exact base_append _ hc

/-! ## Absolute forms -/

/-- Going up from a path from the root drops parts from its end, as far as there are any. -/
theorem foldl_push_ups (h : Reduced true qs) (k : Nat) :
    (List.replicate k dotDot).foldl (push true) qs.reverse = (qs.take (qs.length - k)).reverse := by
  induction k generalizing qs with
  | zero => simp
  | succ k ih =>
    rw [List.replicate_succ, List.foldl_cons]
    rcases List.eq_nil_or_concat qs with rfl | ⟨rs, c, rfl⟩
    · -- at the root a step upward leads nowhere
      exact (ih reduced_nil).trans (by simp)
    · rw [List.concat_eq_append] at *
      have hc := (h.isName c (by simp)).ne_dotDot
      have hpush : push true (rs ++ [c]).reverse dotDot = rs.reverse := by simp [push, hc]
      have hrs : Reduced true rs := by simpa using h.take rs.length
      have hcut : (rs ++ [c]).length - (k + 1) = rs.length - k := by
        rw [List.length_append, List.length_singleton]
        omega
      rw [hpush, ih hrs, hcut, List.take_append_of_le_length (Nat.sub_le _ _)]

/-- Names are added as they are. -/
theorem foldl_push_names (done : List Bytes) (h : ∀ c ∈ ps, IsName c) :
    ps.foldl (push rooted) done = ps.reverse ++ done := by
  induction ps generalizing done with
  | nil => rfl
  | cons c cs ih =>
    have hpush : push rooted done c = c :: done := by
      simp [push, (h c List.mem_cons_self).ne_dotDot]
    rw [List.foldl_cons, hpush, ih _ fun d hd => h d (List.mem_cons_of_mem c hd)]
    simp

/-- A path from the root does not depend on the working directory. -/
theorem parts_absolute_rooted (cwd : Bytes) (h : Reduced true ps) :
    parts (absolute cwd (ofParts true ps)) = ps := by
  have habs := isAbsolute_ofParts true h.isPart
  have hparts := parts_ofParts true h.isPart
  rw [absolute, if_pos habs, clean_of_parts habs hparts h, hparts]

/-- A relative path goes up from the working directory, and then down. -/
theorem parts_absolute_relative (hqs : Reduced true qs) (k : Nat) (h : ∀ c ∈ ps, IsName c) :
    parts (absolute (ofParts true qs) (ofParts false (List.replicate k dotDot ++ ps))) =
      qs.take (qs.length - k) ++ ps := by
  have hrel : ∀ c ∈ List.replicate k dotDot ++ ps, IsPart c := by
    intro c hc
    rcases List.mem_append.mp hc with hc | hc
    · exact List.eq_of_mem_replicate hc ▸ isPart_dotDot
    · exact (h c hc).toIsPart
  -- the working directory first, then the steps upward from it, then the names
  have hfold :
      (parts (ofParts true qs ++ slash :: ofParts false (List.replicate k dotDot ++ ps))).foldl
      (push true) [] = (qs.take (qs.length - k) ++ ps).reverse := by
    rw [parts_append_slash, parts_ofParts true hqs.isPart, parts_ofParts false hrel,
      List.foldl_append, hqs.foldl_push, List.foldl_append, foldl_push_ups hqs k,
      foldl_push_names _ h, List.reverse_append]
  have hall : ∀ c ∈ qs.take (qs.length - k) ++ ps, IsPart c := by
    intro c hc
    rcases List.mem_append.mp hc with hc | hc
    · exact hqs.isPart c (List.mem_of_mem_take hc)
    · exact (h c hc).toIsPart
  rw [absolute, isAbsolute_ofParts false hrel, if_neg (by simp), join,
    if_neg (by simp [ofParts_ne_nil true hqs.isPart]), clean]
  simp only [show isAbsolute
    (ofParts true qs ++ slash :: ofParts false (List.replicate k dotDot ++ ps)) = true from rfl,
    hfold, List.reverse_reverse]
  exact parts_ofParts true hall

/-! ## The way up -/

/-- The directories above a path: the one it is in, the one that this one is in, and so on. -/
def ancestor (p : Bytes) : Nat → Bytes
  | 0 => dir p
  | k + 1 => dir (ancestor p k)

/-- How many directories there are above the one that a path is in. -/
def depth (p : Bytes) : Nat := (parts (dir p)).length

/-- The directory of any path is clean. -/
theorem exists_dir (p : Bytes) :
    ∃ ps, Reduced (isAbsolute (dir p)) ps ∧ dir p = ofParts (isAbsolute (dir p)) ps ∧
      parts (dir p) = ps := by
  obtain ⟨ps, hps, hclean⟩ := exists_clean (throughLastSlash p)
  have habs : isAbsolute (dir p) = isAbsolute (throughLastSlash p) := by
    rw [dir, hclean]
    exact isAbsolute_ofParts _ hps.isPart
  rw [habs]
  refine ⟨ps, hps, hclean, ?_⟩
  rw [dir, hclean]
  exact parts_ofParts _ hps.isPart

/-- Going up drops parts from the end. -/
theorem ancestor_eq (h : Reduced rooted ps) (hdir : dir p = ofParts rooted ps) (k : Nat) :
    ancestor p k = ofParts rooted (ps.take (ps.length - k)) := by
  induction k with
  | zero => rw [ancestor, hdir, Nat.sub_zero, List.take_length]
  | succ k ih =>
    rw [ancestor, ih, dir_ofParts (h.take _), List.dropLast_eq_take, List.take_take,
      List.length_take]
    congr 2
    omega

/-- The directories on the way up have clean paths, which start where that of the first one does. -/
theorem exists_ancestor (p : Bytes) (k : Nat) :
    ∃ ps, Reduced (isAbsolute (dir p)) ps ∧ ancestor p k = ofParts (isAbsolute (dir p)) ps := by
  obtain ⟨ps, hps, hdir, -⟩ := exists_dir p
  exact ⟨_, hps.take _, ancestor_eq hps hdir k⟩

/-- The directories upward from a path, as far as there are any that are new. -/
theorem upward_eq_map_ancestor (p : Bytes) :
    upward p = (List.range (depth p + 1)).map (ancestor p) := by
  obtain ⟨ps, hps, hdir, hparts⟩ := exists_dir p
  unfold upward depth
  simp only [hparts]
  -- entry by entry: both lists drop one part after the other
  refine List.ext_getElem (by simp) fun i h₁ h₂ => ?_
  simp only [List.length_map, List.length_range] at h₂
  simp only [List.getElem_map, List.getElem_reverse, List.getElem_range, List.length_range,
    ancestor_eq hps hdir]
  congr 2

/-- At its end the way up does not go on. -/
theorem ancestor_of_le (p : Bytes) {k : Nat} (hk : depth p ≤ k) :
    ancestor p k = ofParts (isAbsolute (dir p)) [] := by
  obtain ⟨ps, hps, hdir, hparts⟩ := exists_dir p
  rw [depth, hparts] at hk
  rw [ancestor_eq hps hdir, Nat.sub_eq_zero_of_le hk, List.take_zero]

/-- **The first directory on the way up that has some property**, for any property that directories
    have by their paths. -/
theorem find?_upward_iff {q : Bytes → Bool} {d : Bytes} : (upward p).find? q = some d ↔
    ∃ k ≤ depth p, d = ancestor p k ∧ q d = true ∧ ∀ j < k, q (ancestor p j) = false := by
  rw [upward_eq_map_ancestor, List.find?_eq_some_iff_getElem]
  constructor
  · rintro ⟨hq, k, hk, hd, hbefore⟩
    rw [List.length_map, List.length_range] at hk
    rw [List.getElem_map, List.getElem_range] at hd
    refine ⟨k, Nat.le_of_lt_succ hk, hd.symm, hq, fun j hj => ?_⟩
    simpa using hbefore j hj
  · rintro ⟨k, hk, rfl, hq, hbefore⟩
    refine ⟨hq, k, by simpa using Nat.lt_succ_of_le hk, by simp, fun j hj => ?_⟩
    simpa using hbefore j hj

/-- Whether a path starts at the root is seen from its directory. -/
theorem isAbsolute_dir (h : isAbsolute p = true) : isAbsolute (dir p) = true := by
  cases p with
  | nil => exact absurd h (by simp [isAbsolute])
  | cons b r =>
    obtain rfl : b = slash := by simpa [isAbsolute] using h
    -- what is dropped from the end stops at the first slash, if not before
    obtain ⟨rest, hrest⟩ : ∃ rest, (r.reverse ++ [slash]).dropWhile (· != slash) =
        rest ++ [slash] := by
      rw [List.dropWhile_append]
      split
      · exact ⟨[], by simp⟩
      · exact ⟨_, rfl⟩
    have hthrough : isAbsolute (throughLastSlash (slash :: r)) = true := by
      rw [throughLastSlash, List.reverse_cons, hrest, List.reverse_append]
      rfl
    obtain ⟨ps, hps, hclean⟩ := exists_clean (throughLastSlash (slash :: r))
    rw [dir, hclean, isAbsolute_ofParts _ hps.isPart, hthrough]

end Path
end MarkupLint
