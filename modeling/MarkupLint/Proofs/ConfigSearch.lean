/-
  Which configuration file applies to a document: the one in the nearest directory upward that holds
  a configuration file, unless a package root comes before it.

  The search has two parts, a look beside the document and a walk upward. The walk stops at the
  first directory that lists a marker (`marked_iff`), and a configuration file that can be reached
  by its path is listed in its directory (`holds_of_fileExists`). So the walk would find the file
  beside the document as well, and the look is but a shortcut (`locate_eq_locateUpward`).
-/
import MarkupLint.Proofs.FileTree
import MarkupLint.Proofs.MarkerSearch

namespace MarkupLint

/-! ## Plain patterns -/

namespace Glob

variable {pattern name : Bytes}

/-- A byte that means nothing special in a pattern. -/
def isPlain (b : UInt8) : Bool :=
  b != asterisk && b != Ascii.question && b != openBracket && b != backslash

theorem mark?_of_isPlain {b : UInt8} (h : isPlain b = true) (r : Bytes) :
    mark? b r = some (.item (.byte b), r) := by
  simp only [isPlain, Bool.and_eq_true, bne_iff_ne] at h
  obtain ⟨⟨⟨hstar, hquestion⟩, hbracket⟩, hbackslash⟩ := h
  simp [mark?, hstar, hquestion, hbracket, hbackslash]

/-- A pattern of plain bytes is read byte by byte; the fuel is enough as long as it is no less than
    the pattern. -/
theorem marksFrom?_of_isPlain (h : ∀ b ∈ pattern, isPlain b = true) {fuel : Nat}
    (hfuel : pattern.length ≤ fuel) :
    marksFrom? fuel pattern = some (pattern.map fun b => .item (.byte b)) := by
  induction pattern generalizing fuel with
  | nil => simp [marksFrom?]
  | cons b r ih =>
    cases fuel with
    | zero => exact absurd hfuel (by simp)
    | succ fuel =>
      have hrest := ih (fun c hc => h c (List.mem_cons_of_mem b hc)) (Nat.le_of_succ_le_succ hfuel)
      simp [marksFrom?, mark?_of_isPlain (h b List.mem_cons_self), hrest]

/-- Without a star there is one segment. -/
theorem segments_items (is : List Item) : segments (is.map .item) = (is, []) := by
  induction is with
  | nil => rfl
  | cons i is ih => simp [segments, ih]

/-- A segment of plain bytes is taken off like a text. -/
theorem segmentRest?_bytes (pattern name : Bytes) :
    segmentRest? (pattern.map .byte) name = Bytes.rest? pattern name := by
  induction pattern generalizing name with
  | nil => rfl
  | cons b r ih =>
    cases name with
    | nil => rfl
    | cons c s =>
      -- one item takes one byte off, or fails
      have hstep : segmentRest? ((b :: r).map .byte) (c :: s) =
          if c = b then segmentRest? (r.map .byte) s else none := by
        simp only [segmentRest?, List.map_cons, List.foldlM_cons, Item.rest?]
        split <;> rfl
      rw [hstep, ih]
      by_cases hcb : c = b
      · simp [hcb, Bytes.rest?]
      · simp [hcb, Bytes.rest?, Ne.symm hcb]

/-- A pattern without special bytes matches one name, which is itself. -/
theorem accepts_of_isPlain (h : ∀ b ∈ pattern, isPlain b = true) :
    accepts pattern name = decide (name = pattern) := by
  have hmarks : marks? pattern = some ((pattern.map .byte).map .item) := by
    rw [marks?, marksFrom?_of_isPlain h (Nat.le_refl _), List.map_map]
    rfl
  simp only [accepts, hmarks, segments_items, segmentRest?_bytes]
  -- the pattern is the front of the name, and then the rest has to be empty, or it is not
  by_cases hprefix : pattern.isPrefixOf name = true
  · obtain ⟨rest, rfl⟩ := List.isPrefixOf_iff_prefix.mp hprefix
    cases rest <;> simp [Bytes.rest?, matchesRest]
  · have hne : name ≠ pattern := by
      rintro rfl
      exact hprefix (by simp)
    simp [Bytes.rest?, hprefix, hne]

end Glob

/-! ## Directories and their entries -/

namespace FileSystem

variable {fs : FileSystem} {p d name : Bytes}

/-- A directory holds an entry of this name that is no directory. -/
def Holds (fs : FileSystem) (d name : Bytes) : Prop :=
  ∃ n, (name, n) ∈ fs.entries d ∧ n.isDir = false

/-- A file exists just when its path leads to a node that is no directory. -/
theorem fileExists_iff : fs.fileExists p = true ↔ ∃ content, fs.node p = .ok (.file content) := by
  unfold fileExists
  cases fs.node p with
  | error e => simp
  | ok n => cases n <;> simp [Node.isDir]

/-- Only directories have entries. -/
theorem mem_entries_iff {e : Bytes × Node} :
    e ∈ fs.entries d ↔ ∃ es, fs.node d = .ok (.dir es) ∧ e ∈ es := by
  unfold entries
  cases fs.node d with
  | error e => simp
  | ok n => cases n <;> simp

end FileSystem

namespace ConfigLookup

open MarkupLint.Path

variable {fs : FileSystem} {document d p : Bytes}

/-- The name of configuration files. -/
def configName : Bytes := Bytes.ofString ".htmllintrc"

/-- The name of the files that mark the root of a package. -/
def rootName : Bytes := Bytes.ofString "package.json"

/-- A file of this name has to do with configurations. -/
def IsMarker (name : Bytes) : Prop := name = configName ∨ name = rootName

/-- What the names of the marking files are like: names that fit anywhere, and patterns for
    themselves only. -/
theorem IsMarker.plain {name : Bytes} (h : IsMarker name) :
    IsName name ∧ name.length ≤ Node.maxName ∧ 0 ∉ name ∧ forDirs name = false ∧
      ∀ b ∈ name, Glob.isPlain b = true := by
  rcases h with rfl | rfl
  · exact ⟨⟨⟨by decide, by decide, by decide⟩, by decide⟩, by decide, by decide, by decide,
      List.all_eq_true.mp (by decide)⟩
  · exact ⟨⟨⟨by decide, by decide, by decide⟩, by decide⟩, by decide, by decide, by decide,
      List.all_eq_true.mp (by decide)⟩

/-- A marker pattern matches the files of its name. -/
theorem matches_iff {name : Bytes} (h : IsMarker name) {e : Bytes × Node} :
    Matches name e ↔ e.1 = name ∧ e.2.isDir = false := by
  obtain ⟨-, -, -, hdirs, hplain⟩ := h.plain
  rw [← marks_iff_matches, marks, hdirs, Glob.accepts_of_isPlain hplain]
  simp [And.comm]

/-- The walk upward stops at directories that hold a configuration file or mark a package root. -/
theorem marked_iff :
    Marked fs [configName, rootName] d ↔ fs.Holds d configName ∨ fs.Holds d rootName := by
  simp only [Marked, List.mem_cons, List.not_mem_nil, or_false, exists_eq_or_imp, exists_eq_left,
    matches_iff (.inl rfl), matches_iff (.inr rfl)]
  constructor
  · rintro ⟨⟨name, n⟩, hmem, ⟨rfl, hn⟩ | ⟨rfl, hn⟩⟩
    · exact .inl ⟨n, hmem, hn⟩
    · exact .inr ⟨n, hmem, hn⟩
  · rintro (⟨n, hmem, hn⟩ | ⟨n, hmem, hn⟩)
    · exact ⟨_, hmem, .inl ⟨rfl, hn⟩⟩
    · exact ⟨_, hmem, .inr ⟨rfl, hn⟩⟩

/-- A file that can be reached by its path is listed in its directory. -/
theorem holds_of_fileExists {name : Bytes} (hname : IsMarker name) (k : Nat)
    (h : fs.fileExists (join (ancestor document k) name) = true) :
    fs.Holds (ancestor document k) name := by
  obtain ⟨ps, hps, hdir⟩ := exists_ancestor document k
  rw [hdir] at h ⊢
  obtain ⟨hisName, hlen, hnul, -, -⟩ := hname.plain
  obtain ⟨content, hnode⟩ := FileSystem.fileExists_iff.mp h
  obtain ⟨-, es, hes, hchild⟩ := (FileSystem.node_join_iff hps hisName hlen hnul).mp hnode
  exact ⟨.file content, FileSystem.mem_entries_iff.mpr ⟨es, hes, Node.mem_of_child? hchild⟩, rfl⟩

/-! ## The search -/

/-- The search without the look beside the document: the nearest directory that is marked
    decides. -/
def locateUpward (l : ConfigLookup) (fs : FileSystem) (document : Bytes) : Option Bytes :=
  (markedDir? fs document (l.fileName :: l.rootMarkers)).bind fun dir =>
    if fs.fileExists (join dir l.fileName) then some (join dir l.fileName) else none

/-- The look beside the document comes first. -/
theorem locate_eq (l : ConfigLookup) (fs : FileSystem) (document : Bytes) :
    l.locate fs document =
      if fs.fileExists (join (dir document) l.fileName) then some (join (dir document) l.fileName)
      else l.locateUpward fs document := by
  unfold locate locateUpward
  cases markedDir? fs document (l.fileName :: l.rootMarkers) <;> rfl

/-- The configuration file that governs a document: it is in a directory on the way up, and no
    directory below that one holds a configuration file or is a package root. -/
def Governs (fs : FileSystem) (document p : Bytes) : Prop :=
  ∃ k ≤ depth document, p = join (ancestor document k) configName ∧ fs.fileExists p = true ∧
    ∀ j < k, ¬ fs.Holds (ancestor document j) configName ∧ ¬ fs.Holds (ancestor document j) rootName

/-- The walk upward has found the file in the first marked directory. -/
theorem locateUpward_eq_some_iff :
    locateUpward {} fs document = some p ↔
      ∃ d, markedDir? fs document [configName, rootName] = some d ∧ p = join d configName ∧
        fs.fileExists p = true := by
  refine Option.bind_eq_some_iff.trans (exists_congr fun d => and_congr_right fun _ => ?_)
  rw [Option.ite_none_right_eq_some, Option.some.injEq]
  constructor
  · rintro ⟨hfile, rfl⟩
    exact ⟨rfl, hfile⟩
  · rintro ⟨rfl, hfile⟩
    exact ⟨hfile, rfl⟩

/-- The walk upward finds the file that governs the document. -/
theorem locateUpward_iff_governs :
    locateUpward {} fs document = some p ↔ Governs fs document p := by
  rw [locateUpward_eq_some_iff]
  constructor
  · rintro ⟨d, hmarked, rfl, hfile⟩
    obtain ⟨k, hk, rfl, -, hbelow⟩ := markedDir?_eq_some.mp hmarked
    exact ⟨k, hk, rfl, hfile, fun j hj => not_or.mp (mt marked_iff.mpr (hbelow j hj))⟩
  · rintro ⟨k, hk, rfl, hfile, hbelow⟩
    -- the file can be reached, so it is listed, and the walk stops here
    have hholds := holds_of_fileExists (.inl rfl) k hfile
    have hmarked : markedDir? fs document [configName, rootName] = some (ancestor document k) :=
      markedDir?_eq_some.mpr ⟨k, hk, rfl, marked_iff.mpr (.inl hholds),
        fun j hj => mt marked_iff.mp (not_or.mpr (hbelow j hj))⟩
    exact ⟨_, hmarked, rfl, hfile⟩

/-- A file beside the document governs it, and the walk upward would find it. -/
theorem locate_eq_locateUpward (fs : FileSystem) (document : Bytes) :
    locate {} fs document = locateUpward {} fs document := by
  rw [locate_eq]
  split
  · rename_i hbeside
    -- no directory is below that of the document
    exact (locateUpward_iff_governs.mpr
      ⟨0, Nat.zero_le _, rfl, hbeside, fun j hj => absurd hj (Nat.not_lt_zero j)⟩).symm
  · rfl

/-- **The configuration of a document is the nearest one upward.** The way up from a document given
    by a path from the root ends at the root. The search finds a configuration file exactly if it
    governs the document, and finds none exactly if no file does. The look beside the document never
    changes the answer of the walk upward. -/
theorem locate_iff_governs (fs : FileSystem) (habs : isAbsolute document = true) :
    ancestor document (depth document) = [Ascii.slash] ∧
    (∀ p, locate {} fs document = some p ↔ Governs fs document p) ∧
    (locate {} fs document = none ↔ ∀ p, ¬ Governs fs document p) ∧
    locate {} fs document = locateUpward {} fs document := by
  have hlocate : ∀ p, locate {} fs document = some p ↔ Governs fs document p := by
    intro p
    rw [locate_eq_locateUpward]
    exact locateUpward_iff_governs
  refine ⟨?_, hlocate, ?_, locate_eq_locateUpward fs document⟩
  · -- the directories of an absolute path are absolute, and the last of them is the root
    rw [ancestor_of_le document (Nat.le_refl _), isAbsolute_dir habs]
    rfl
  · rw [Option.eq_none_iff_forall_not_mem]
    exact forall_congr' fun p => not_congr (hlocate p)

/-- On the way up from `/a/b/c/page.html`, where `c` is missing, directories that are called like
    the marking files do not count, so the file at the root governs. With a package root at `/a`
    nothing does. -/
theorem locate_iff_governs_upward :
    let document := Bytes.ofString "/a/b/c/page.html"
    let tree (marker : Node) : FileSystem :=
      ⟨.dir [(configName, .file []), (Bytes.ofString "a", .dir [(rootName, marker),
        (Bytes.ofString "b", .dir [(configName, .dir [])])])], [Ascii.slash]⟩
    isAbsolute document = true ∧
    Governs (tree (.dir [])) document (Bytes.ofString "/.htmllintrc") ∧
    ∀ p, ¬ Governs (tree (.file [])) document p := by
  refine ⟨by decide, ?_, ?_⟩
  · exact ((locate_iff_governs _ (by decide)).2.1 _).mp (by decide)
  · exact (locate_iff_governs _ (by decide)).2.2.1.mp (by decide)

end ConfigLookup
end MarkupLint
