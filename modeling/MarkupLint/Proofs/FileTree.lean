/-
  Places in a tree of files, and how paths lead to them.

  A place is given by the names on the way to it from the root (`Node.find?`). A path is walked part
  by part, and a part may also stay or go up; so what a walk does is told by where it leads
  (`Leads`): from a directory with the directories above it to a node with those above that one. On
  a path from the root a walk does nothing but look for the place (`walk_names_iff`). A relative
  path starts in the working directory, goes up from there, and then down. Either way a clean path
  stands for one place, which does not depend on the tree (`walk_dir_iff`).

  Behind all of it is what a file below a directory is: an entry of it (`node_join_iff`).
-/
import MarkupLint.FileSystem
import MarkupLint.Proofs.CleanPath

namespace MarkupLint

namespace Node

variable {up up' : List Node} {n m root : Node} {es : List (Bytes × Node)} {c name : Bytes}
  {ps qs names rest : List Bytes}

/-! ## Places -/

/-- What stands at a place, which is given by the names on the way to it. -/
def find? (n : Node) : List Bytes → Option Node
  | [] => some n
  | name :: rest =>
    match n with
    | .file _ => none
    | .dir es => (child? name es).bind fun child => find? child rest

theorem find?_nil (n : Node) : n.find? [] = some n := rfl

/-- There is nothing below a file. -/
theorem find?_file (content : Bytes) (name : Bytes) (rest : List Bytes) :
    (Node.file content).find? (name :: rest) = none := rfl

theorem find?_cons (es : List (Bytes × Node)) (name : Bytes) (rest : List Bytes) :
    (Node.dir es).find? (name :: rest) = (child? name es).bind fun child => child.find? rest := rfl

/-- Looking for a place can be broken off anywhere and taken up again. -/
theorem find?_append (n : Node) (ps qs : List Bytes) :
    n.find? (ps ++ qs) = (n.find? ps).bind fun m => m.find? qs := by
  induction ps generalizing n with
  | nil => rfl
  | cons name ps ih =>
    cases n with
    | file content => rfl
    | dir es =>
      rw [List.cons_append, find?_cons, find?_cons, Option.bind_assoc]
      congr 1
      funext child
      exact ih child

/-- At a place below another one stands an entry of the directory there. -/
theorem find?_concat_iff :
    n.find? (ps ++ [name]) = some m ↔
      ∃ es, n.find? ps = some (.dir es) ∧ child? name es = some m := by
  rw [find?_append, Option.bind_eq_some_iff]
  constructor
  · rintro ⟨k, hk, hm⟩
    cases k with
    | file content => exact absurd hm (by simp [find?_file])
    | dir es =>
      rw [find?_cons] at hm
      exact ⟨es, hk, by simpa [find?_nil] using hm⟩
  · rintro ⟨es, hes, hm⟩
    exact ⟨.dir es, hes, by simp [hm, find?_cons, find?_nil]⟩

/-- What a name leads to is listed. -/
theorem mem_of_child? (h : child? name es = some m) : (name, m) ∈ es := by
  induction es with
  | nil => exact absurd h (by simp [child?])
  | cons e es ih =>
    obtain ⟨n, node⟩ := e
    rw [child?] at h
    split at h
    · subst n
      rw [Option.some.inj h]
      exact List.mem_cons_self
    · exact List.mem_cons_of_mem _ (ih h)

/-! ## Walking -/

/-- Walking some parts leads from one node to another, whatever parts come then. -/
def Leads (up : List Node) (n : Node) (ps : List Bytes) (up' : List Node) (m : Node) : Prop :=
  ∀ rest, walk up n (ps ++ rest) = walk up' m rest

theorem walk_nil (up : List Node) (n : Node) : walk up n [] = .ok n := rfl

/-- One cannot walk on from a file. -/
theorem walk_file (up : List Node) (content : Bytes) (c : Bytes) (rest : List Bytes) :
    walk up (.file content) (c :: rest) = .error .notDirectory := rfl

/-- One part further from a directory. -/
theorem walk_dir (up : List Node) (es : List (Bytes × Node)) (c : Bytes) (rest : List Bytes) :
    walk up (.dir es) (c :: rest) =
      if c.isEmpty || c = Path.dot then walk up (.dir es) rest
      else if c = Path.dotDot then walk up.tail (up.head?.getD (.dir es)) rest
      else if maxName < c.length then .error .nameTooLong
      else (child? c es).elim (.error .missing) fun child => walk (.dir es :: up) child rest := by
  rw [walk.eq_def]
  dsimp only
  cases up <;> cases child? c es <;> rfl

/-- Where parts lead to, a walk of them ends. -/
theorem Leads.walk_eq (h : Leads up n ps up' m) : walk up n ps = .ok m := by
  have hend := h []
  rwa [List.append_nil, walk_nil] at hend

/-- Ways are put together. -/
theorem Leads.append {up₁ : List Node} {n₁ : Node} (h : Leads up n ps up₁ n₁)
    (h' : Leads up₁ n₁ qs up' m) : Leads up n (ps ++ qs) up' m := by
  intro rest
  rw [List.append_assoc, h, h']

theorem walk_blank (hc : c = [] ∨ c = Path.dot) :
    walk up (.dir es) (c :: rest) = walk up (.dir es) rest := by
  rw [walk_dir, if_pos]
  rcases hc with rfl | rfl <;> rfl

theorem walk_up : walk up (.dir es) (Path.dotDot :: rest) =
    walk up.tail (up.head?.getD (.dir es)) rest := by
  rw [walk_dir, if_neg (by decide), if_pos rfl]

/-- A part that is a name leads to the entry of that name, if it is short enough and there is
    one. -/
theorem walk_name (hnil : c ≠ []) (hdot : c ≠ Path.dot) (hup : c ≠ Path.dotDot) (up : List Node)
    (es : List (Bytes × Node)) (rest : List Bytes) :
    walk up (.dir es) (c :: rest) =
      if maxName < c.length then .error .nameTooLong
      else (child? c es).elim (.error .missing) fun child => walk (.dir es :: up) child rest := by
  rw [walk_dir, if_neg (by simp [hnil, hdot]), if_neg hup]

/-- A part that is empty or a dot stays. -/
theorem leads_blank (hc : c = [] ∨ c = Path.dot) : Leads up (.dir es) [c] up (.dir es) :=
  fun _ => walk_blank hc

/-- A step upward leads to the directory above, or stays at the root. -/
theorem leads_up : Leads up (.dir es) [Path.dotDot] up.tail (up.head?.getD (.dir es)) :=
  fun _ => walk_up

/-- A name leads to the entry of that name. -/
theorem leads_name (up : List Node) (hc : Path.IsName c) (hlen : c.length ≤ maxName)
    (hchild : child? c es = some m) : Leads up (.dir es) [c] (.dir es :: up) m := by
  intro rest
  rw [List.singleton_append, walk_name hc.ne_nil hc.ne_dot hc.ne_dotDot, if_neg (by omega), hchild]
  rfl

/-- A walk that comes through a part has started in a directory, and the part leads on from
    there. -/
theorem walk_cons_eq_ok (h : walk up n (c :: rest) = .ok m) :
    ∃ es up' k, n = .dir es ∧ Leads up n [c] up' k ∧ walk up' k rest = .ok m := by
  cases n with
  | file content => exact absurd h (by simp [walk_file])
  | dir es =>
    -- the part stays, goes up, or is a name that is found
    by_cases hblank : c = [] ∨ c = Path.dot
    · rw [walk_blank hblank] at h
      exact ⟨es, up, .dir es, rfl, leads_blank hblank, h⟩
    · rw [not_or] at hblank
      by_cases hup : c = Path.dotDot
      · subst hup
        rw [walk_up] at h
        exact ⟨es, _, _, rfl, leads_up, h⟩
      · have hstep := walk_name hblank.1 hblank.2 hup up es
        rw [hstep] at h
        split at h
        · exact absurd h (by simp)
        · cases hchild : child? c es with
          | none => rw [hchild] at h; exact absurd h (by simp)
          | some child =>
            rw [hchild] at h
            refine ⟨es, .dir es :: up, child, rfl, fun rest => ?_, h⟩
            rw [List.singleton_append, hstep, if_neg ‹_›, hchild]
            rfl

/-- A walk that comes to its end has come through every part of its way. -/
theorem walk_append_eq_ok (h : walk up n (ps ++ qs) = .ok m) :
    ∃ up' k, Leads up n ps up' k ∧ walk up' k qs = .ok m := by
  induction ps generalizing up n with
  | nil => exact ⟨up, n, fun _ => rfl, h⟩
  -- the walk comes through the first part, and from there through the others
  | cons c ps ih =>
    obtain ⟨es, up₁, n₁, rfl, hc, hrest⟩ := walk_cons_eq_ok h
    obtain ⟨up', k, hps, hqs⟩ := ih hrest
    exact ⟨up', k, hc.append hps, hqs⟩

/-- A walk that ends somewhere has led there. -/
theorem exists_leads (h : walk up n ps = .ok m) : ∃ up', Leads up n ps up' m := by
  rw [← List.append_nil ps] at h
  obtain ⟨up', k, hps, hk⟩ := walk_append_eq_ok h
  obtain rfl : k = m := by simpa [walk_nil] using hk
  exact ⟨up', hps⟩

/-- Walking one name more finds an entry of the directory that was reached. -/
theorem walk_concat_name_iff (hname : Path.IsName name) (hlen : name.length ≤ maxName) :
    walk up n (ps ++ [name]) = .ok m ↔
      ∃ es, walk up n ps = .ok (.dir es) ∧ child? name es = some m := by
  constructor
  · intro h
    obtain ⟨up₁, n₁, hps, hlast⟩ := walk_append_eq_ok h
    obtain ⟨es, -, -, rfl, -, -⟩ := walk_cons_eq_ok hlast
    refine ⟨es, hps.walk_eq, ?_⟩
    rw [walk_name hname.ne_nil hname.ne_dot hname.ne_dotDot, if_neg (by omega)] at hlast
    cases hchild : child? name es with
    | none => rw [hchild] at hlast; exact absurd hlast (by simp)
    | some child =>
      rw [hchild] at hlast
      simpa [walk_nil] using hlast
  · rintro ⟨es, hps, hchild⟩
    obtain ⟨up₁, hleads⟩ := exists_leads hps
    exact (hleads.append (leads_name _ hname hlen hchild)).walk_eq

/-- A part that stays changes nothing about where a directory is found. -/
theorem walk_concat_blank_iff (hc : c = [] ∨ c = Path.dot) :
    walk up n (ps ++ [c]) = .ok (.dir es) ↔ walk up n ps = .ok (.dir es) := by
  constructor
  · intro h
    obtain ⟨up₁, n₁, hps, hlast⟩ := walk_append_eq_ok h
    obtain ⟨es₁, -, -, rfl, -, -⟩ := walk_cons_eq_ok hlast
    rw [walk_blank hc, walk_nil] at hlast
    exact hlast ▸ hps.walk_eq
  · intro h
    obtain ⟨up₁, hleads⟩ := exists_leads h
    exact (hleads.append (leads_blank hc)).walk_eq

/-- Walking names is looking for a place. -/
theorem walk_names_iff (hnames : ∀ c ∈ names, Path.IsName c) :
    walk up n names = .ok m ↔ (∀ c ∈ names, c.length ≤ maxName) ∧ n.find? names = some m := by
  induction names generalizing up n with
  | nil => simp [walk_nil, find?_nil]
  | cons c cs ih =>
    have hc := hnames c List.mem_cons_self
    have hcs := fun d hd => hnames d (List.mem_cons_of_mem c hd)
    cases n with
    | file content => simp [walk_file, find?_file]
    | dir es =>
      rw [walk_name hc.ne_nil hc.ne_dot hc.ne_dotDot, find?_cons, List.forall_mem_cons]
      -- a name that is too long ends the walk, but not the search
      by_cases hlen : maxName < c.length
      · rw [if_pos hlen]
        simp [Nat.not_le.mpr hlen]
      · rw [if_neg hlen]
        cases child? c es with
        | none => simp
        | some child => simp [ih hcs, Nat.not_lt.mp hlen]

/-- From the root one cannot go up. -/
theorem walk_root_up : walk [] (.dir es) (Path.dotDot :: rest) = walk [] (.dir es) rest := walk_up

/-- Going up takes back the last step. -/
theorem walk_concat_up (hnames : ∀ c ∈ ps ++ [name], Path.IsName c)
    (hlen : ∀ c ∈ ps ++ [name], c.length ≤ maxName) (h : n.find? (ps ++ [name]) = some (.dir es)) :
    walk up n (ps ++ [name] ++ Path.dotDot :: rest) = walk up n (ps ++ rest) := by
  -- there and back from the directory above, which is then where the walk goes on
  obtain ⟨es', hps, hchild⟩ := find?_concat_iff.mp h
  have hmem : ∀ {c}, c ∈ ps → c ∈ ps ++ [name] := fun hc => List.mem_append_left [name] hc
  have hwalk : walk up n ps = .ok (.dir es') :=
    (walk_names_iff fun c hc => hnames c (hmem hc)).mpr ⟨fun c hc => hlen c (hmem hc), hps⟩
  obtain ⟨up', hleads⟩ := exists_leads hwalk
  have hname := leads_name up' (hnames name (by simp)) (hlen name (by simp)) hchild
  have hback := (hleads.append hname).append leads_up rest
  rw [List.append_assoc] at hback
  exact hback.trans (hleads rest).symm

/-- Going up `k` times takes back the last `k` steps, as far as there are any. -/
theorem walk_ups (hnames : ∀ c ∈ ps, Path.IsName c) (hlen : ∀ c ∈ ps, c.length ≤ maxName)
    (h : n.find? ps = some (.dir es)) (k : Nat) :
    walk [] n (ps ++ (List.replicate k Path.dotDot ++ rest)) =
      walk [] n (ps.take (ps.length - k) ++ rest) := by
  induction k generalizing ps es with
  | zero => simp
  | succ k ih =>
    rw [List.replicate_succ, List.cons_append]
    -- at the root going up stays, and elsewhere it takes the last name back
    rcases List.eq_nil_or_concat ps with rfl | ⟨qs, name, rfl⟩
    · obtain rfl : n = .dir es := by simpa [find?_nil] using h
      have hrest := ih hnames hlen h
      simp only [List.nil_append, List.take_nil] at hrest ⊢
      rw [walk_root_up, hrest]
    · rw [List.concat_eq_append] at *
      obtain ⟨es', hqs, -⟩ := find?_concat_iff.mp h
      have hmem : ∀ {c}, c ∈ qs → c ∈ qs ++ [name] := fun hc => List.mem_append_left [name] hc
      rw [walk_concat_up hnames hlen h, ih (fun c hc => hnames c (hmem hc))
        (fun c hc => hlen c (hmem hc)) hqs]
      have hcut : (qs ++ [name]).length - (k + 1) = qs.length - k := by
        rw [List.length_append, List.length_singleton]
        omega
      rw [hcut, List.take_append_of_le_length (Nat.sub_le _ _)]

end Node

/-! ## Paths -/

/-- A path as it is walked: one that does not start at the root starts in the working directory. -/
def Path.full (cwd p : Bytes) : Bytes := if isAbsolute p then p else cwd ++ Ascii.slash :: p

namespace FileSystem

open MarkupLint.Path

variable {fs : FileSystem} {p name : Bytes} {m : Node} {es : List (Bytes × Node)} {ps : List Bytes}
  {rooted : Bool}

/-- A path leads to a node if it can be looked up at all, and the walk from the root ends there. -/
theorem node_eq_ok_iff : fs.node p = .ok m ↔ p ≠ [] ∧ 0 ∉ p ∧ p.length ≤ maxPath ∧
    Node.walk [] fs.root (Bytes.splitAt Ascii.slash (full fs.cwd p)) = .ok m := by
  unfold node
  -- the three checks before the walk, one after the other
  by_cases hnil : p = []
  · simp [hnil]
  · by_cases hnul : 0 ∈ p
    · simp [hnil, hnul]
    · by_cases hlen : maxPath < p.length
      · simp [hnil, hnul, hlen, Nat.not_le.mpr hlen]
      · simp [hnil, hnul, hlen, full, Nat.not_lt.mp hlen]

/-- The parts of a way that come before those of a clean path. -/
def lead (fs : FileSystem) (rooted : Bool) : List Bytes :=
  if rooted then [[]] else Bytes.splitAt Ascii.slash fs.cwd

/-- The parts of a clean path are walked as they are. -/
theorem splitAt_full (h : Reduced rooted ps) (hps : ps ≠ []) :
    Bytes.splitAt Ascii.slash (full fs.cwd (ofParts rooted ps)) = fs.lead rooted ++ ps := by
  have hsplit := splitAt_joinParts hps h.isPart
  rw [full, isAbsolute_ofParts _ h.isPart]
  cases rooted with
  | true => exact (Bytes.splitAt_append_sep [] (joinParts ps)).trans (by rw [hsplit]; rfl)
  | false =>
    have hjoin : ofParts false ps = joinParts ps := by simp [ofParts, hps]
    rw [if_neg (by simp), Bytes.splitAt_append_sep, hjoin, hsplit]
    rfl

/-- The root, or the working directory, has a part at the end that stays. -/
theorem splitAt_full_nil (fs : FileSystem) (rooted : Bool) : ∃ c, (c = [] ∨ c = dot) ∧
    Bytes.splitAt Ascii.slash (full fs.cwd (ofParts rooted [])) = fs.lead rooted ++ [c] := by
  cases rooted with
  | true => exact ⟨[], .inl rfl, rfl⟩
  | false => exact ⟨dot, .inr rfl, Bytes.splitAt_append_sep fs.cwd dot⟩

/-- A clean path that leads to a directory. -/
theorem node_dir_iff (h : Reduced rooted ps) : fs.node (ofParts rooted ps) = .ok (.dir es) ↔
    0 ∉ ofParts rooted ps ∧ (ofParts rooted ps).length ≤ maxPath ∧
      Node.walk [] fs.root (fs.lead rooted ++ ps) = .ok (.dir es) := by
  have hwalk : Node.walk [] fs.root (Bytes.splitAt Ascii.slash (full fs.cwd (ofParts rooted ps))) =
      .ok (.dir es) ↔ Node.walk [] fs.root (fs.lead rooted ++ ps) = .ok (.dir es) := by
    by_cases hps : ps = []
    · subst hps
      obtain ⟨c, hc, hsplit⟩ := splitAt_full_nil fs rooted
      rw [hsplit, List.append_nil]
      exact Node.walk_concat_blank_iff hc
    · rw [splitAt_full h hps]
  rw [node_eq_ok_iff, hwalk]
  exact and_iff_right (ofParts_ne_nil rooted h.isPart)

/-- A path is no longer than one below it. -/
theorem length_le_of_concat (rooted : Bool) (ps : List Bytes) (hname : IsName name) :
    (ofParts rooted ps).length ≤ (ofParts rooted (ps ++ [name])).length := by
  by_cases hps : ps = []
  · have hpos := List.length_pos_iff.mpr hname.ne_nil
    subst hps
    cases rooted with
    | true => simp [ofParts, joinParts]
    | false => exact hpos
  · rw [ofParts_concat rooted hps, List.length_append]
    exact Nat.le_add_right _ _

/-- A further name without a null byte brings none in. -/
theorem zero_mem_concat_iff (rooted : Bool) (ps : List Bytes) (hnul : 0 ∉ name) :
    0 ∈ ofParts rooted (ps ++ [name]) ↔ 0 ∈ ofParts rooted ps := by
  by_cases hps : ps = []
  · subst hps
    cases rooted <;> simp [ofParts, joinParts, dot, hnul]
  · rw [ofParts_concat rooted hps, List.mem_append, List.mem_cons]
    simp [hnul, Ascii.slash]

/-- What a name below a directory leads to is an entry of the directory. -/
theorem node_join_iff (h : Reduced rooted ps) (hname : IsName name)
    (hlen : name.length ≤ Node.maxName) (hnul : 0 ∉ name) :
    fs.node (join (ofParts rooted ps) name) = .ok m ↔
      (join (ofParts rooted ps) name).length ≤ maxPath ∧
        ∃ es, fs.node (ofParts rooted ps) = .ok (.dir es) ∧ Node.child? name es = some m := by
  have hconcat := h.snoc hname
  have hshort := length_le_of_concat rooted ps hname
  rw [join_ofParts h hname, node_eq_ok_iff, splitAt_full hconcat (by simp),
    ← List.append_assoc, Node.walk_concat_name_iff hname hlen, zero_mem_concat_iff rooted ps hnul]
  constructor
  · rintro ⟨-, hzero, hlength, es, hwalk, hchild⟩
    exact ⟨hlength, es, (node_dir_iff h).mpr ⟨hzero, Nat.le_trans hshort hlength, hwalk⟩, hchild⟩
  · rintro ⟨hlength, es, hdir, hchild⟩
    obtain ⟨hzero, -, hwalk⟩ := (node_dir_iff h).mp hdir
    exact ⟨ofParts_ne_nil rooted hconcat.isPart, hzero, hlength, es, hwalk, hchild⟩

/-! ## Where paths lead -/

/-- The working directory is given by a clean path from the root, and it is there. -/
structure InCwd (fs : FileSystem) : Prop where
  canonical : Canonical fs.cwd
  dir : ∃ es, fs.root.find? (parts fs.cwd) = some (.dir es)

/-- No part of a path is longer than a name can be. -/
def Fits (cwd p : Bytes) : Prop := ∀ c ∈ parts (full cwd p), c.length ≤ Node.maxName

/-- The names on the way to the working directory. -/
theorem InCwd.exists_parts (h : fs.InCwd) :
    ∃ qs es, Reduced true qs ∧ fs.cwd = ofParts true qs ∧ fs.root.find? qs = some (.dir es) := by
  obtain ⟨qs, hqs, hcwd⟩ := canonical_iff.mp h.canonical
  obtain ⟨es, hes⟩ := h.dir
  rw [hcwd, parts_ofParts true hqs.isPart] at hes
  exact ⟨qs, es, hqs, hcwd, hes⟩

/-- A walk starts at the root, if the root is a directory. -/
theorem walk_root (hroot : fs.root = .dir es) (ps : List Bytes) :
    Node.walk [] fs.root ([] :: ps) = Node.walk [] fs.root ps := by
  rw [hroot]
  exact Node.walk_blank (.inl rfl)

/-- A relative way starts with the way to the working directory. -/
theorem walk_lead_relative {qs : List Bytes} (hqs : Reduced true qs)
    (hcwd : fs.cwd = ofParts true qs) (hes : fs.root.find? qs = some (.dir es)) (ps : List Bytes) :
    Node.walk [] fs.root (fs.lead false ++ ps) = Node.walk [] fs.root (qs ++ ps) := by
  have hroot : ∃ es, fs.root = .dir es := by
    cases hr : fs.root with
    | dir es => exact ⟨es, rfl⟩
    | file content =>
      rw [hr] at hes
      cases qs <;> exact absurd hes (by simp [Node.find?_nil, Node.find?_file])
  obtain ⟨es₀, hroot⟩ := hroot
  have hlead : fs.lead false = Bytes.splitAt Ascii.slash fs.cwd := rfl
  rw [hlead, hcwd]
  by_cases hnil : qs = []
  · subst hnil
    exact (walk_root hroot _).trans (walk_root hroot _)
  · have hsplit : Bytes.splitAt Ascii.slash (ofParts true qs) = [] :: qs :=
      (Bytes.splitAt_append_sep [] (joinParts qs)).trans
        (by rw [splitAt_joinParts hnil hqs.isPart]; rfl)
    rw [hsplit]
    exact walk_root hroot _

/-- **A clean path leads to a directory where its absolute form finds one.** Whether it is too long
    to be walked does not depend on the tree. -/
theorem walk_dir_iff (h : Reduced rooted ps) (hcwd : rooted = false → fs.InCwd) :
    Node.walk [] fs.root (fs.lead rooted ++ ps) = .ok (.dir es) ↔
      Fits fs.cwd (ofParts rooted ps) ∧
        fs.root.find? (parts (absolute fs.cwd (ofParts rooted ps))) = some (.dir es) := by
  unfold Fits
  rw [full, isAbsolute_ofParts _ h.isPart]
  cases rooted with
  | true =>
    rw [if_pos rfl, parts_ofParts true h.isPart, parts_absolute_rooted _ h]
    rw [← Node.walk_names_iff h.isName]
    show Node.walk [] fs.root ([] :: ps) = _ ↔ _
    cases hr : fs.root with
    | dir es₀ => rw [Node.walk_blank (.inl rfl)]
    | file content => cases ps <;> simp [Node.walk]
  -- a relative path is walked from the working directory, some steps up and then along names
  | false =>
    obtain ⟨qs, es₀, hqs, hcwd', hes₀⟩ := (hcwd rfl).exists_parts
    obtain ⟨k, names, rfl, -, hnames⟩ := h.exists_names
    rw [walk_lead_relative hqs hcwd' hes₀, if_neg (by simp), parts_append_slash, hcwd',
      parts_ofParts true hqs.isPart, parts_ofParts false h.isPart,
      parts_absolute_relative hqs k hnames]
    have hup : ∀ c ∈ List.replicate k dotDot, c.length ≤ Node.maxName := by
      intro c hc
      rw [List.eq_of_mem_replicate hc]
      decide
    by_cases hlen : ∀ c ∈ qs, c.length ≤ Node.maxName
    · have hall : ∀ c ∈ qs.take (qs.length - k) ++ names, IsName c := by
        intro c hc
        rcases List.mem_append.mp hc with hc | hc
        · exact hqs.isName c (List.mem_of_mem_take hc)
        · exact hnames c hc
      rw [Node.walk_ups hqs.isName hlen hes₀ k, Node.walk_names_iff hall]
      refine and_congr_left' ?_
      simp only [List.forall_mem_append]
      have htake : ∀ c ∈ qs.take (qs.length - k), c.length ≤ Node.maxName :=
        fun c hc => hlen c (List.mem_of_mem_take hc)
      exact ⟨fun hfits => ⟨hlen, hup, hfits.2⟩, fun hfits => ⟨htake, hfits.2.2⟩⟩
    · -- the way to the working directory itself cannot be walked
      constructor
      · intro hwalk
        obtain ⟨up', m, hleads, -⟩ := Node.walk_append_eq_ok hwalk
        exact absurd ((Node.walk_names_iff hqs.isName).mp hleads.walk_eq).1 hlen
      · rintro ⟨hfits, -⟩
        exact absurd (fun c hc => hfits c (List.mem_append_left _ hc)) hlen

end FileSystem
end MarkupLint
