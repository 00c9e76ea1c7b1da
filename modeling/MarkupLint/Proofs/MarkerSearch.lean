/-
  The search for a marked directory, as a loop.

  The loop goes from the directory of a path to the directory of that one, and so on, and stops at
  the first one that is marked, or when a turn does not lead to another directory any more
  (`Climb.turn`). The length of the path is no measure for it: the directory of `a` is `.`, and that
  of `.` is `.` again. But after the first turn all paths are clean, and each turn drops a part, so
  the number of parts is one (`length_parts_ancestor`). The loop ends with what `markedDir?` finds
  (`runs_from`).
-/
import MarkupLint.ConfigFile
import MarkupLint.Proofs.CleanPath

namespace MarkupLint

/-! ## Directories one above the other -/

namespace Path

/-- Each step upward drops a part, as long as there are any. -/
theorem length_parts_ancestor (p : Bytes) (k : Nat) :
    (parts (ancestor p k)).length = depth p - k := by
  obtain ⟨ps, hps, hdir, hparts⟩ := exists_dir p
  have htake := (hps.take (ps.length - k)).isPart
  rw [ancestor_eq hps hdir k, parts_ofParts _ htake, List.length_take, depth, hparts]
  omega

/-- No directory on the way up has an empty path. -/
theorem ancestor_ne_nil (p : Bytes) (k : Nat) : ancestor p k ≠ [] := by
  obtain ⟨ps, hps, heq⟩ := exists_ancestor p k
  rw [heq]
  exact ofParts_ne_nil _ hps.isPart

/-- The directory of a directory on the way up is that directory itself just at the end of the
    way. -/
theorem dir_ancestor_eq_iff (p : Bytes) (k : Nat) :
    dir (ancestor p k) = ancestor p k ↔ depth p ≤ k := by
  have hnext : dir (ancestor p k) = ancestor p (k + 1) := rfl
  rw [hnext]
  constructor
  · intro heq
    have hlength := length_parts_ancestor p (k + 1)
    rw [heq, length_parts_ancestor] at hlength
    omega
  · intro hk
    rw [ancestor_of_le p hk, ancestor_of_le p (Nat.le_succ_of_le hk)]

end Path

namespace ConfigLookup

open MarkupLint.Path

variable {fs : FileSystem} {markers : List Bytes} {marker p : Bytes} {e : Bytes × Node}

/-! ## Markers -/

/-- The marker matches an entry: with slashes at its end it is a glob for the names of directories,
    and without one a glob for the names of files. -/
inductive Matches : Bytes → Bytes × Node → Prop where
  | directory {glob name : Bytes} {es : List (Bytes × Node)} (n : Nat)
      (hend : glob.getLast? ≠ some Ascii.slash)
      (hname : Glob.accepts glob name = true) :
      Matches (glob ++ List.replicate (n + 1) Ascii.slash) (name, .dir es)
  | file {glob name content : Bytes} (hend : glob.getLast? ≠ some Ascii.slash)
      (hname : Glob.accepts glob name = true) : Matches glob (name, .file content)

/-- A marker is a glob and the slashes behind it. -/
theorem exists_pattern (marker : Bytes) :
    (pattern marker).getLast? ≠ some Ascii.slash ∧
      ∃ n, marker = pattern marker ++ List.replicate n Ascii.slash := by
  constructor
  · have hhead := List.head?_dropWhile_not (· == Ascii.slash) marker.reverse
    rw [pattern, List.getLast?_reverse]
    intro hlast
    rw [hlast] at hhead
    exact absurd hhead (by decide)
  · have hslashes : marker.reverse.takeWhile (· == Ascii.slash) =
        List.replicate (marker.reverse.takeWhile (· == Ascii.slash)).length Ascii.slash :=
      List.eq_replicate_of_mem fun b hb => eq_of_beq (List.all_eq_true.mp List.all_takeWhile b hb)
    refine ⟨(marker.reverse.takeWhile (· == Ascii.slash)).length, ?_⟩
    have hcut := List.takeWhile_append_dropWhile (p := (· == Ascii.slash)) (l := marker.reverse)
    calc marker
        = marker.reverse.reverse := marker.reverse_reverse.symm
      _ = pattern marker ++ (marker.reverse.takeWhile (· == Ascii.slash)).reverse := by
          rw [← hcut, List.reverse_append, hcut]
          rfl
      _ = _ := by rw [hslashes, List.reverse_replicate, List.length_replicate]

/-- The slashes behind a glob are taken off. -/
theorem pattern_append {glob : Bytes} (hend : glob.getLast? ≠ some Ascii.slash) (n : Nat) :
    pattern (glob ++ List.replicate n Ascii.slash) = glob := by
  have hkept : glob.reverse.dropWhile (· == Ascii.slash) = glob.reverse := by
    cases hrev : glob.reverse with
    | nil => rfl
    | cons b r =>
      have hlast : glob.getLast? = some b := by
        rw [← List.head?_reverse, hrev]
        rfl
      have hb : ¬ (b == Ascii.slash) = true := fun heq => hend (by rw [hlast, eq_of_beq heq])
      rw [List.dropWhile_cons, if_neg hb]
  have hslashes : ∀ b ∈ (List.replicate n Ascii.slash).reverse, (b == Ascii.slash) = true := by
    intro b hb
    rw [List.reverse_replicate] at hb
    rw [List.eq_of_mem_replicate hb]
    decide
  rw [pattern, List.reverse_append, List.dropWhile_append_of_pos hslashes, hkept,
    List.reverse_reverse]

theorem forDirs_iff : forDirs marker = true ↔ marker.getLast? = some Ascii.slash :=
  decide_eq_true_iff

/-- A marker with a slash at its end is for directories. -/
theorem forDirs_append (glob : Bytes) (n : Nat) :
    forDirs (glob ++ List.replicate (n + 1) Ascii.slash) = true := by
  rw [forDirs_iff, List.replicate_succ', ← List.append_assoc, List.getLast?_concat]

/-- A marker is read as its glob and its kind. -/
theorem marks_iff_matches : marks marker e = true ↔ Matches marker e := by
  obtain ⟨name, node⟩ := e
  constructor
  · intro h
    obtain ⟨hend, n, hmarker⟩ := exists_pattern marker
    rw [marks] at h
    split at h
    · rename_i hdirs
      obtain ⟨hdir, hname⟩ := Bool.and_eq_true_iff.mp h
      cases node with
      | file content => exact absurd hdir (by simp [Node.isDir])
      | dir es =>
        cases n with
        | zero =>
          -- without a slash at its end the marker would not be for directories
          rw [List.replicate_zero, List.append_nil] at hmarker
          rw [← hmarker] at hend
          exact absurd (forDirs_iff.mp hdirs) hend
        | succ n =>
          rw [hmarker]
          exact .directory n hend hname
    · rename_i hfiles
      obtain ⟨hfile, hname⟩ := Bool.and_eq_true_iff.mp h
      cases node with
      | file content => exact .file (fun hlast => hfiles (forDirs_iff.mpr hlast)) hname
      | dir es => exact absurd hfile (by simp [Node.isDir])
  · intro h
    cases h with
    | directory n hend hname =>
      rw [marks, if_pos (forDirs_append _ n), pattern_append hend]
      simpa [Node.isDir] using hname
    | file hend hname =>
      rw [marks, if_neg (mt forDirs_iff.mp hend)]
      simpa [Node.isDir] using hname

/-- The directory has an entry that one of the markers matches. -/
def Marked (fs : FileSystem) (markers : List Bytes) (d : Bytes) : Prop :=
  ∃ e ∈ fs.entries d, ∃ marker ∈ markers, Matches marker e

/-- The check of a directory looks at all entries and all markers. -/
theorem isMarked_iff_marked {d : Bytes} : isMarked fs markers d = true ↔ Marked fs markers d := by
  simp only [isMarked, Marked, List.any_eq_true, marks_iff_matches]

/-- A malformed glob matches no name. -/
theorem accepts_of_malformed {glob : Bytes} (h : Glob.marks? glob = none) (name : Bytes) :
    Glob.accepts glob name = false := by
  rw [Glob.accepts, h]

/-! ## The loop -/

/-- Where the search is: at a directory, and at which one it was before. -/
structure Climb where
  previous : Bytes
  current : Bytes
  deriving DecidableEq, Repr

namespace Climb

/-- One turn of the loop: it ends, with a directory or without one, or goes on one directory
    higher. -/
def turn (fs : FileSystem) (markers : List Bytes) (c : Climb) : Except (Option Bytes) Climb :=
  if c.current = c.previous then .error none
  else if isMarked fs markers c.current then .error (some c.current)
  else .ok ⟨c.current, dir c.current⟩

/-- The loop takes this many turns and ends with this result. -/
inductive Runs (fs : FileSystem) (markers : List Bytes) : Climb → Nat → Option Bytes → Prop where
  | stop {c : Climb} {r : Option Bytes} (h : c.turn fs markers = .error r) : Runs fs markers c 1 r
  | next {c d : Climb} {n : Nat} {r : Option Bytes} (h : c.turn fs markers = .ok d)
      (hrest : Runs fs markers d n r) :
      Runs fs markers c (n + 1) r

/-- The search for the directories upward from a path begins at that of the path. -/
def start (p : Bytes) : Climb := ⟨[], dir p⟩

/-- A loop ends in one way only. -/
theorem Runs.unique {c : Climb} {m n : Nat} {q r : Option Bytes} (h : Runs fs markers c m q)
    (h' : Runs fs markers c n r) : n = m ∧ r = q := by
  induction h generalizing n with
  | stop hturn =>
    cases h' with
    | stop hturn' =>
      rw [hturn] at hturn'
      exact ⟨rfl, (Except.error.inj hturn').symm⟩
    | next hturn' _ =>
      rw [hturn] at hturn'
      exact absurd hturn' (by simp)
  -- the same turn leads to the same place, and from there on it is the induction's
  | next hturn _ ih =>
    cases h' with
    | stop hturn' =>
      rw [hturn] at hturn'
      exact absurd hturn' (by simp)
    | next hturn' hrest' =>
      rw [hturn] at hturn'
      obtain rfl := Except.ok.inj hturn'
      obtain ⟨rfl, rfl⟩ := ih hrest'
      exact ⟨rfl, rfl⟩

/-- From a directory on the way up the loop finds the first one that is marked. The induction is on
    the directories that are left. -/
theorem runs_from (fs : FileSystem) (markers : List Bytes) (p : Bytes) (left k : Nat)
    (previous : Bytes) (hk : k + left = depth p + 1)
    (hnew : k ≤ depth p → ancestor p k ≠ previous) (hold : depth p < k → ancestor p k = previous) :
    ∃ n ≤ left + 1, Runs fs markers ⟨previous, ancestor p k⟩ n
      (((List.range' k left).map (ancestor p)).find? (isMarked fs markers)) := by
  induction left generalizing k previous with
  | zero =>
    refine ⟨1, by omega, .stop ?_⟩
    rw [turn, if_pos (hold (by omega))]
    rfl
  | succ left ih =>
    rw [List.range'_succ, List.map_cons, List.find?_cons]
    cases hmarked : isMarked fs markers (ancestor p k) with
    | true =>
      refine ⟨1, by omega, .stop ?_⟩
      rw [turn, if_neg (hnew (by omega)), if_pos hmarked]
    -- the directory above is another one, unless the way ends here
    | false =>
      have hfixed := dir_ancestor_eq_iff p k
      obtain ⟨n, hn, hrest⟩ := ih (k + 1) (ancestor p k) (by omega)
        (fun hle heq => by have hend := hfixed.mp heq; omega) (fun hlt => hfixed.mpr (by omega))
      refine ⟨n + 1, by omega, .next ?_ hrest⟩
      rw [turn, if_neg (hnew (by omega)), if_neg (by simp [hmarked])]
      rfl

/-- The loop ends, and with what the search over all directories upward finds. -/
theorem runs_start (fs : FileSystem) (markers : List Bytes) (p : Bytes) :
    ∃ n ≤ depth p + 2, Runs fs markers (start p) n (markedDir? fs p markers) := by
  have hruns := runs_from fs markers p (depth p + 1) 0 [] (by omega)
    (fun _ => ancestor_ne_nil p 0) (fun h => absurd h (Nat.not_lt_zero _))
  rw [markedDir?, upward_eq_map_ancestor, List.range_eq_range']
  exact hruns

end Climb

/-! ## The search -/

/-- The search finds the nearest directory that is marked. -/
theorem markedDir?_eq_some {d : Bytes} : markedDir? fs p markers = some d ↔
    ∃ k ≤ depth p, d = ancestor p k ∧ Marked fs markers d ∧
      ∀ j < k, ¬ Marked fs markers (ancestor p j) := by
  rw [markedDir?, find?_upward_iff]
  simp only [isMarked_iff_marked, ← Bool.not_eq_true]

/-- Behind the end of the way up there are no further directories. -/
theorem markedDir?_eq_none :
    markedDir? fs p markers = none ↔ ∀ k, ¬ Marked fs markers (ancestor p k) := by
  rw [markedDir?, upward_eq_map_ancestor, List.find?_eq_none]
  simp only [List.mem_map, List.mem_range, isMarked_iff_marked, forall_exists_index, and_imp,
    forall_apply_eq_imp_iff₂]
  constructor
  · intro h k
    by_cases hk : k ≤ depth p
    · exact h k (Nat.lt_succ_of_le hk)
    · -- further up it is always the last directory
      have hend := h (depth p) (Nat.lt_succ_self _)
      rwa [ancestor_of_le p (Nat.le_refl _), ← ancestor_of_le p (k := k) (by omega)] at hend
  · exact fun h k _ => h k

/-- **The search upward ends, and finds the nearest marked directory.** Take any tree, any path and
    any markers. The loop comes to an end, in one way only, and after at most two turns more than
    there are directories above the first one. The way up ends at the first directory that is its
    own, and no directory on it has an empty path. What the loop finds is the first directory on the
    way that has an entry which a marker matches, and it finds none just when there is no such
    directory. A malformed glob matches nothing. -/
theorem climb_finds_nearest (fs : FileSystem) (p : Bytes) (markers : List Bytes) :
    (∃ n ≤ depth p + 2, ∀ m r, Climb.Runs fs markers (Climb.start p) m r ↔
      m = n ∧ r = markedDir? fs p markers) ∧
    (∀ k, ancestor p k ≠ [] ∧ (dir (ancestor p k) = ancestor p k ↔ depth p ≤ k)) ∧
    (∀ d, markedDir? fs p markers = some d ↔
      ∃ k ≤ depth p, d = ancestor p k ∧ Marked fs markers d ∧
        ∀ j < k, ¬ Marked fs markers (ancestor p j)) ∧
    (markedDir? fs p markers = none ↔ ∀ k, ¬ Marked fs markers (ancestor p k)) ∧
    ∀ glob name, Glob.marks? glob = none → Glob.accepts glob name = false := by
  refine ⟨?_, fun k => ⟨ancestor_ne_nil p k, dir_ancestor_eq_iff p k⟩, fun d => markedDir?_eq_some,
    markedDir?_eq_none, fun glob name h => accepts_of_malformed h name⟩
  obtain ⟨n, hn, hruns⟩ := Climb.runs_start fs markers p
  refine ⟨n, hn, fun m r => ⟨hruns.unique, ?_⟩⟩
  rintro ⟨rfl, rfl⟩
  exact hruns

end ConfigLookup
end MarkupLint
