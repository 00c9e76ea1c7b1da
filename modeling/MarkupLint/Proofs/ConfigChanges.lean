/-
  Which changes of a tree can change the configuration of a document.

  Of a tree, the search for a configuration asks only which of the marking files are in the
  directories upward from the document, and reading asks for the content of one of them. So two
  trees with the same marking files (`Alike`) give the same answers, whatever directories are in one
  of them only: a directory that is missing and one that holds no marking file are the same to the
  search. Both what trees have in common where `affectsConfig` tells so (`alike_of_agree`) and what
  a change of any other file leaves alone (`alike_change`) come down to this.
-/
import MarkupLint.Proofs.ConfigSearch
import MarkupLint.Proofs.FileChange

namespace MarkupLint

namespace Path

variable {p cwd : Bytes}

/-- The absolute form of a path has names only. -/
theorem isName_of_mem_absolute (h : isAbsolute p = false → isAbsolute cwd = true) :
    ∀ c ∈ parts (absolute cwd p), IsName c := by
  obtain ⟨q, habs, hq⟩ : ∃ q, isAbsolute q = true ∧ absolute cwd p = clean q := by
    -- either the path is from the root itself, or it is joined to a working directory that is
    cases habs : isAbsolute p with
    | true => exact ⟨p, habs, if_pos habs⟩
    | false =>
      have hcwd := h habs
      have hjoin : absolute cwd p = join cwd p := if_neg (by simp [habs])
      cases cwd with
      | nil => exact absurd hcwd (by simp [isAbsolute])
      | cons b r => exact ⟨b :: r ++ Ascii.slash :: p, by simpa [isAbsolute] using hcwd, hjoin⟩
  obtain ⟨ps, hps, hclean⟩ := exists_clean q
  rw [habs] at hps hclean
  rw [hq, hclean, parts_ofParts true hps.isPart]
  exact hps.isName

end Path

namespace FileSystem

open MarkupLint.Path

variable {fs fs₁ fs₂ : FileSystem} {d p name content : Bytes} {ps : List Bytes} {rooted : Bool}

/-- The directory that a path leads to has a file of this name and content. -/
def Keeps (fs : FileSystem) (d name content : Bytes) : Prop :=
  ∃ es, fs.node d = .ok (.dir es) ∧ Node.child? name es = some (.file content)

/-- Files in a directory are found by their place. Whether the path can be walked does not depend on
    the tree. -/
theorem keeps_iff (h : Reduced rooted ps) (hcwd : rooted = false → fs.InCwd) :
    fs.Keeps (ofParts rooted ps) name content ↔
      0 ∉ ofParts rooted ps ∧ (ofParts rooted ps).length ≤ maxPath ∧
        Fits fs.cwd (ofParts rooted ps) ∧
        fs.root.find? (parts (absolute fs.cwd (ofParts rooted ps)) ++ [name]) =
          some (.file content) := by
  simp only [Keeps, node_dir_iff h, walk_dir_iff h hcwd, Node.find?_concat_iff]
  constructor
  · rintro ⟨es, ⟨hnul, hlen, hfits, hes⟩, hchild⟩
    exact ⟨hnul, hlen, hfits, es, hes, hchild⟩
  · rintro ⟨hnul, hlen, hfits, es, hes, hchild⟩
    exact ⟨es, ⟨hnul, hlen, hfits, hes⟩, hchild⟩

/-- A directory lists a file exactly if it has one. -/
theorem holds_iff_keeps (hdistinct : fs.root.Distinct) :
    fs.Holds d name ↔ ∃ content, fs.Keeps d name content := by
  -- the first entry of a name is its only one
  have hnodup : ∀ {es}, fs.node d = .ok (.dir es) → (es.map Prod.fst).Nodup := by
    intro es hes
    obtain ⟨-, -, -, hwalk⟩ := node_eq_ok_iff.mp hes
    exact (hdistinct.of_walk (by simp) hwalk).nodup
  constructor
  · rintro ⟨n, hmem, hn⟩
    obtain ⟨es, hes, hmem⟩ := mem_entries_iff.mp hmem
    cases n with
    | dir _ => exact absurd hn (by simp [Node.isDir])
    | file content => exact ⟨content, es, hes, (Node.mem_iff_child? (hnodup hes)).mp hmem⟩
  · rintro ⟨content, es, hes, hchild⟩
    exact ⟨.file content, mem_entries_iff.mpr ⟨es, hes, Node.mem_of_child? hchild⟩, rfl⟩

/-- What is at the place of a path: nothing, a directory, or a file with its content. -/
def standsAt (fs : FileSystem) (p : Bytes) : Option (Option Bytes) :=
  (fs.root.find? (parts p)).map fun
    | .file content => some content
    | .dir _ => none

/-- A file stands at a clean path if the walk along its parts ends at it. -/
theorem standsAt_eq_file_iff (hps : Reduced true ps) :
    fs.standsAt (ofParts true ps) = some (some content) ↔
      fs.root.find? ps = some (.file content) := by
  rw [standsAt, parts_ofParts true hps.isPart]
  cases fs.root.find? ps with
  | none => simp
  | some n => cases n <;> simp

end FileSystem

namespace ConfigLookup

open MarkupLint.Path

variable {fs fs₁ fs₂ : FileSystem} {document p name content : Bytes}

/-- A tree as a document is looked up in: no double names, and, for a relative path, a working
    directory. -/
structure Suits (fs : FileSystem) (document : Bytes) : Prop where
  distinct : fs.root.Distinct
  inCwd : isAbsolute document = false → fs.InCwd

/-- Two trees with the same marking files. -/
structure Alike (document : Bytes) (fs₁ fs₂ : FileSystem) : Prop where
  left : Suits fs₁ document
  right : Suits fs₂ document
  cwd : isAbsolute document = false → fs₁.cwd = fs₂.cwd
  files : ∀ qs name content, (∀ c ∈ qs, IsName c) → IsMarker name →
    (fs₁.root.find? (qs ++ [name]) = some (.file content) ↔
      fs₂.root.find? (qs ++ [name]) = some (.file content))

section Congruence

variable (h : Alike document fs₁ fs₂) (k : Nat)
include h

/-- Directories on the way up have the same marking files in both trees. -/
theorem Alike.keeps_iff (hname : IsMarker name) (content : Bytes) :
    fs₁.Keeps (ancestor document k) name content ↔
      fs₂.Keeps (ancestor document k) name content := by
  obtain ⟨ps, hps, hdir⟩ := exists_ancestor document k
  have hrelative : isAbsolute (dir document) = false → isAbsolute document = false := by
    intro hdirRelative
    cases habs : isAbsolute document with
    | false => rfl
    | true => exact absurd (isAbsolute_dir habs) (by simp [hdirRelative])
  have hd := isAbsolute_ofParts (isAbsolute (dir document)) hps.isPart
  rw [hdir, FileSystem.keeps_iff hps fun hr => h.left.inCwd (hrelative hr),
    FileSystem.keeps_iff hps fun hr => h.right.inCwd (hrelative hr)]
  generalize ofParts (isAbsolute (dir document)) ps = d at hd ⊢
  -- the working directory matters to relative paths only, and then it is the same
  have hfull : full fs₁.cwd d = full fs₂.cwd d ∧ absolute fs₁.cwd d = absolute fs₂.cwd d := by
    cases habs : isAbsolute d with
    | true => simp [full, absolute, habs]
    | false => rw [h.cwd (hrelative (hd ▸ habs))]; exact ⟨rfl, rfl⟩
  have hnames :=
    isName_of_mem_absolute fun habs => (h.right.inCwd (hrelative (hd ▸ habs))).canonical.absolute
  rw [FileSystem.Fits, FileSystem.Fits, hfull.1, hfull.2, h.files _ _ _ hnames hname]

/-- Trees that are alike list the same marking files. -/
theorem Alike.holds_iff (hname : IsMarker name) :
    fs₁.Holds (ancestor document k) name ↔ fs₂.Holds (ancestor document k) name := by
  rw [FileSystem.holds_iff_keeps h.left.distinct, FileSystem.holds_iff_keeps h.right.distinct]
  exact exists_congr (h.keeps_iff k hname)

/-- A marking file is reached by its path in both trees or in none. -/
theorem Alike.node_iff (hname : IsMarker name) (content : Bytes) :
    fs₁.node (join (ancestor document k) name) = .ok (.file content) ↔
      fs₂.node (join (ancestor document k) name) = .ok (.file content) := by
  have hkeeps := h.keeps_iff k hname content
  obtain ⟨ps, hps, hdir⟩ := exists_ancestor document k
  obtain ⟨hisName, hlen, hnul, -, -⟩ := hname.plain
  rw [hdir] at hkeeps ⊢
  rw [FileSystem.node_join_iff hps hisName hlen hnul,
    FileSystem.node_join_iff hps hisName hlen hnul]
  exact and_congr_right fun _ => hkeeps

omit k

/-- The same file governs the document in both trees. -/
theorem Alike.governs_iff : Governs fs₁ document p ↔ Governs fs₂ document p := by
  refine exists_congr fun k => and_congr_right fun _ => and_congr_right fun hp => and_congr ?_ ?_
  · subst hp
    rw [FileSystem.fileExists_iff, FileSystem.fileExists_iff]
    exact exists_congr (h.node_iff k (.inl rfl))
  · refine forall_congr' fun j => imp_congr_right fun _ => ?_
    rw [h.holds_iff j (.inl rfl), h.holds_iff j (.inr rfl)]

/-- The search comes to the same end. -/
theorem Alike.locate_eq : locate {} fs₁ document = locate {} fs₂ document := by
  rw [locate_eq_locateUpward, locate_eq_locateUpward]
  refine Option.ext fun p => ?_
  exact locateUpward_iff_governs.trans (h.governs_iff.trans locateUpward_iff_governs.symm)

/-- The file that governs the document has the same content in both trees. -/
theorem Alike.load_eq (hp : Governs fs₁ document p) : load fs₁ p = load fs₂ p := by
  obtain ⟨k, -, rfl, hfile, -⟩ := hp
  obtain ⟨content, hnode⟩ := FileSystem.fileExists_iff.mp hfile
  have hnode₂ := (h.node_iff k (.inl rfl) content).mp hnode
  have hread : fs₁.read (join (ancestor document k) configName) =
      fs₂.read (join (ancestor document k) configName) := by
    simp only [FileSystem.read, hnode, hnode₂]
  rw [load, load, hread]

/-- Trees with the same marking files give a document the same configuration, or the same
    failure. -/
theorem Alike.resolve_eq (canceled : Bool) :
    resolve {} fs₁ document canceled = resolve {} fs₂ document canceled := by
  unfold resolve
  rw [← h.locate_eq]
  cases hlocate : locate {} fs₁ document with
  | none => rfl
  | some p =>
    rw [locate_eq_locateUpward] at hlocate
    simp only [h.load_eq (locateUpward_iff_governs.mp hlocate)]

end Congruence

/-! ## Changes -/

/-- A path is told of by its last part alone. -/
theorem affectsConfig_iff : affectsConfig p = true ↔ IsMarker (base p) := by
  simp [affectsConfig, IsMarker, configName, rootName]

/-- The paths that `affectsConfig` tells of are those of the marking files. -/
theorem alike_of_agree (hleft : Suits fs₁ document) (hright : Suits fs₂ document)
    (hcwd : isAbsolute document = false → fs₁.cwd = fs₂.cwd)
    (hagree : ∀ p, Canonical p → affectsConfig p = true → fs₁.standsAt p = fs₂.standsAt p) :
    Alike document fs₁ fs₂ := by
  refine ⟨hleft, hright, hcwd, fun qs name content hqs hname => ?_⟩
  -- each place of a marking file has a path, whose last part is the name of the file
  obtain ⟨hisName, -⟩ := hname.plain
  have hreduced : Reduced true (qs ++ [name]) := (reduced_nil.append hqs).snoc hisName
  have haffects : affectsConfig (ofParts true (qs ++ [name])) = true := by
    rw [affectsConfig_iff, base_ofParts hisName.toIsPart]
    exact hname
  rw [← FileSystem.standsAt_eq_file_iff hreduced, ← FileSystem.standsAt_eq_file_iff hreduced,
    hagree _ (canonical_iff.mpr ⟨_, hreduced, rfl⟩) haffects]

/-- A change of a file that is no marking file leaves the marking files as they are. -/
theorem alike_change {f : Option Node → Option Node} (hsuits : Suits fs document) (hp : Canonical p)
    (haffects : affectsConfig p = false) (hf : Node.FileChange f) :
    Alike document (fs.change p f) fs := by
  have hclean := hp.clean
  obtain ⟨ps, hps, rfl⟩ := canonical_iff.mp hp
  have hroot : ∀ n, some fs.root = some n → n.Distinct := by
    rintro n ⟨⟩
    exact hsuits.distinct
  have hchange : (fs.change (ofParts true ps) f).root =
      (Node.update f ps (some fs.root)).getD (.dir []) := by
    rw [FileSystem.change, hclean, parts_ofParts true hps.isPart]
  refine ⟨⟨?_, fun hrelative => ?_⟩, hsuits, fun _ => rfl, fun qs name content _ hname => ?_⟩
  · rw [hchange]
    cases hnew : Node.update f ps (some fs.root) with
    | none => exact .dir (by simp) (by simp)
    | some n => exact Node.distinct_update hf hroot n hnew
  · -- the working directory is still there
    have hin := hsuits.inCwd hrelative
    obtain ⟨es, hes⟩ := hin.dir
    obtain ⟨es', hes'⟩ := Node.dir_update hf hroot ps hes
    refine ⟨hin.canonical, es', ?_⟩
    obtain ⟨n, hn, hfound⟩ := Option.bind_eq_some_iff.mp hes'
    rw [hchange, hn]
    exact hfound
  · -- the change is at the place of another file
    have hne : qs ++ [name] ≠ ps := by
      rintro rfl
      rw [← Bool.not_eq_true, affectsConfig_iff, base_ofParts hname.plain.1.toIsPart] at haffects
      exact haffects hname
    rw [hchange, Node.find?_getD, Node.file_update_iff hf hroot hne]
    rfl

/-- **Only files that `affectsConfig` tells of can change the configuration of a document.** Two
    trees that have the same at all the paths it tells of give a document the same configuration, or
    the same failure. So a change of any other file never changes the configuration of a
    document. -/
theorem affectsConfig_sound (document : Bytes) (canceled : Bool) :
    (∀ fs₁ fs₂ : FileSystem, Suits fs₁ document → Suits fs₂ document →
      (isAbsolute document = false → fs₁.cwd = fs₂.cwd) →
      (∀ p, Canonical p → affectsConfig p = true → fs₁.standsAt p = fs₂.standsAt p) →
      resolve {} fs₁ document canceled = resolve {} fs₂ document canceled) ∧
    (∀ (fs : FileSystem) (p : Bytes) (f : Option Node → Option Node), Suits fs document →
      Canonical p → affectsConfig p = false → Node.FileChange f →
      resolve {} (fs.change p f) document canceled = resolve {} fs document canceled) := by
  constructor
  · intro fs₁ fs₂ hleft hright hcwd hagree
    exact (alike_of_agree hleft hright hcwd hagree).resolve_eq canceled
  · intro fs p f hsuits hp haffects hf
    exact (alike_change hsuits hp haffects hf).resolve_eq canceled

/-- The directory of `/a/b/page.html` may be there or not, and a file in a new directory that is
    called like a package root may come into being: what `/a/.htmllintrc` says holds. -/
theorem affectsConfig_sound_newDirectory :
    let document := Bytes.ofString "/a/b/page.html"
    let inner := Bytes.ofString "/a/b/package.json/notes"
    let tree (below : List (Bytes × Node)) : FileSystem :=
      ⟨.dir [(Bytes.ofString "a", .dir ((configName, .file (Bytes.ofString "{}")) :: below))],
        [Ascii.slash]⟩
    let bare := tree []
    let full := tree [(Bytes.ofString "b", .dir [])]
    (∀ p, Canonical p → affectsConfig p = true → full.standsAt p = bare.standsAt p) ∧
    resolve {} full document false = resolve {} bare document false ∧
    affectsConfig inner = false ∧
    resolve {} (full.write inner []) document false = resolve {} full document false := by
  intro document inner tree bare full
  have hsuits : ∀ below, (Node.dir below).Distinct → configName ∉ below.map Prod.fst →
      Suits (tree below) document := by
    intro below hbelow hnew
    refine ⟨.dir (by simp) ?_, fun h => absurd h (by decide)⟩
    intro e he
    rw [List.mem_singleton.mp he]
    have hnodup := List.nodup_cons.mpr ⟨hnew, hbelow.nodup⟩
    exact .dir hnodup (List.forall_mem_cons.mpr ⟨.file _, fun e he => hbelow.entry he⟩)
  have hbare : Suits bare document := hsuits [] (.dir (by simp) (by simp)) (by simp)
  have hfull : Suits full document :=
    hsuits _ (.dir (by simp) (by simpa using .dir (by simp) (by simp))) (by decide)
  have hagree : ∀ p, Canonical p → affectsConfig p = true → full.standsAt p = bare.standsAt p := by
    intro p hp haffects
    obtain ⟨ps, hps, rfl⟩ := canonical_iff.mp hp
    rcases List.eq_nil_or_concat ps with rfl | ⟨qs, name, rfl⟩
    · exact absurd haffects (by decide)
    · rw [List.concat_eq_append] at *
      rw [affectsConfig_iff, base_ofParts (hps.isPart name (by simp))] at haffects
      rw [FileSystem.standsAt, FileSystem.standsAt, parts_ofParts true hps.isPart]
      congr 1
      have hb : name ≠ Bytes.ofString "b" := by
        rcases haffects with rfl | rfl <;> decide
      -- below `b` there is nothing
      have hbelow : ∀ rs, (Node.dir []).find? (rs ++ [name]) = none := by
        intro rs
        cases rs <;> simp [Node.find?, Node.child?]
      -- at the root, in `/a`, or below it
      rcases qs with _ | ⟨q, _ | ⟨r, rs⟩⟩
      · rcases haffects with rfl | rfl <;> rfl
      · simp only [full, bare, tree, List.cons_append, List.nil_append, Node.find?_cons,
          Node.child?]
        split <;> simp [Node.find?, Node.child?, Ne.symm hb]
      · simp only [full, bare, tree, List.cons_append, Node.find?_cons, Node.child?]
        split
        · simp only [Option.bind_some, Node.find?_cons, Node.child?]
          split
          · rfl
          · split <;> simp [hbelow]
        · rfl
  refine ⟨hagree, ?_, by decide, ?_⟩
  · exact (affectsConfig_sound document false).1 full bare hfull hbare
      (fun h => absurd h (by decide)) hagree
  · have hinner : Canonical inner := ⟨by decide, by decide⟩
    refine (affectsConfig_sound document false).2 full inner _ hfull hinner (by decide)
      ⟨fun _ => rfl, ?_⟩
    rintro (_ | _ | _) es h
    · exact absurd h (by simp)
    · exact absurd h (by simp)
    · exact h

end ConfigLookup
end MarkupLint
