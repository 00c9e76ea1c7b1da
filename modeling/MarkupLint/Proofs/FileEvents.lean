/-
  Changes of files that the client tells of, and those that the server sees itself.

  The watcher of the server looks at the path of a file, the server at the text of the URI that the
  client sends. A path is written in the end of its URI from a slash on, if there is no query
  (`exists_written`). There the last part of the URI stands for the last part of the path, and is
  the same if it holds no escape (`lastPart_of_decode?`). So what comes from the client is told
  apart as the watcher does it, but for names that are written with escapes
  (`concernsConfig_iff_of_plain`).
-/
import Mathlib.Data.List.TakeWhile
import MarkupLint.Proofs.ConfigChanges
import MarkupLint.Proofs.FileUri
import MarkupLint.Proofs.Timers
import MarkupLint.Proofs.WatcherSteps

namespace MarkupLint

namespace Path

open Ascii

variable {s t x c : Bytes}

/-! ## The last part of a path -/

/-- The last part of a text: a slash or nothing stands before it, and only slashes stand behind
    it. -/
def LastPart (x c : Bytes) : Prop :=
  ∃ lead trail, x = lead ++ (c ++ trail) ∧ c ≠ [] ∧ slash ∉ c ∧
    (lead = [] ∨ ∃ s, lead = s ++ [slash]) ∧ ∀ b ∈ trail, b = slash

/-- A text that is more than slashes has a last part. -/
theorem exists_lastPart (h : ∃ b ∈ x, b ≠ slash) : ∃ c, LastPart x c := by
  -- read from its end: slashes, then the part, then the rest, which begins with a slash if there is
  -- one
  generalize hcut : x.reverse.dropWhile (· == slash) = y
  have hx : x = y.reverse ++ (x.reverse.takeWhile (· == slash)).reverse := by
    rw [← hcut, ← List.reverse_append, List.takeWhile_append_dropWhile, List.reverse_reverse]
  obtain ⟨d, r, rfl⟩ : ∃ d r, y = d :: r := by
    refine List.exists_cons_of_ne_nil fun hnil => ?_
    obtain ⟨b, hb, hne⟩ := h
    rw [hnil, List.dropWhile_eq_nil_iff] at hcut
    exact hne (by simpa using hcut b (List.mem_reverse.mpr hb))
  have hd : d ≠ slash := by
    have hne : x.reverse.dropWhile (· == slash) ≠ [] := by simp [hcut]
    simpa [hcut] using List.head_dropWhile_not _ hne
  refine ⟨((d :: r).takeWhile (· != slash)).reverse, ((d :: r).dropWhile (· != slash)).reverse,
    (x.reverse.takeWhile (· == slash)).reverse, ?_, ?_, ?_, ?_, ?_⟩
  · rw [← List.append_assoc, ← List.reverse_append, List.takeWhile_append_dropWhile]
    exact hx
  · simp [hd]
  · intro hmem
    simpa using List.mem_takeWhile_imp (List.mem_reverse.mp hmem)
  · cases hrest : (d :: r).dropWhile (· != slash) with
    | nil => exact .inl rfl
    | cons e l =>
      have he : e = slash := by
        have hne : (d :: r).dropWhile (· != slash) ≠ [] := by simp [hrest]
        simpa [hrest] using List.head_dropWhile_not _ hne
      exact .inr ⟨l.reverse, by rw [he, List.reverse_cons]⟩
  · intro b hb
    simpa using List.mem_takeWhile_imp (List.mem_reverse.mp hb)

/-- The last part is what is taken for the name of a file. -/
theorem base_of_lastPart (h : LastPart x c) : base x = c := by
  obtain ⟨lead, trail, rfl, hne, hslash, hlead, htrail⟩ := h
  have htrail' : ∀ b ∈ trail.reverse, (b == slash) = true := fun b hb => by
    simpa using htrail b (List.mem_reverse.mp hb)
  have hkept := ne_slash_of_mem_reverse hslash
  obtain ⟨d, r, hdr⟩ := List.exists_cons_of_ne_nil (show c.reverse ≠ [] by simpa using hne)
  have hd : (d == slash) = false := by
    have := hkept d (by rw [hdr]; exact List.mem_cons_self)
    simpa using this
  -- without the slashes at the end, the text ends with the part
  have hcut : (lead ++ (c ++ trail)).reverse.dropWhile (· == slash) =
      c.reverse ++ lead.reverse := by
    rw [List.reverse_append, List.reverse_append, List.append_assoc,
      List.dropWhile_append_of_pos htrail', hdr]
    simp [hd]
  have htake : (c.reverse ++ lead.reverse).takeWhile (· != slash) = c.reverse := by
    rw [List.takeWhile_append_of_pos hkept]
    rcases hlead with rfl | ⟨s, rfl⟩ <;> simp
  rw [base, if_neg (by simp [hne])]
  simp only [hcut]
  rw [if_neg (by simp [hne]), htake, List.reverse_reverse]

theorem LastPart.self (h : LastPart x c) : LastPart c c := by
  obtain ⟨-, -, -, hne, hslash, -, -⟩ := h
  exact ⟨[], [], by simp, hne, hslash, .inl rfl, by simp⟩

/-- A name is its own name. -/
theorem base_base (x : Bytes) : base (base x) = base x := by
  by_cases h : ∃ b ∈ x, b ≠ slash
  · obtain ⟨c, hc⟩ := exists_lastPart h
    rw [base_of_lastPart hc, base_of_lastPart hc.self]
  · -- slashes alone, or nothing at all
    have hcut : x.reverse.dropWhile (· == slash) = [] := by
      refine List.dropWhile_eq_nil_iff.mpr fun b hb => beq_iff_eq.mpr ?_
      exact Decidable.not_not.mp fun hne => h ⟨b, List.mem_reverse.mp hb, hne⟩
    by_cases hx : x = []
    · rw [hx]
      decide
    · rw [show base x = [slash] by simp [base, hx, hcut]]
      decide

/-- What stands before a slash has no say in what the last part of a text is. -/
theorem LastPart.append (h : LastPart (slash :: x) c) (s : Bytes) :
    LastPart (s ++ slash :: x) c := by
  obtain ⟨lead, trail, hx, hne, hslash, hlead, htrail⟩ := h
  refine ⟨s ++ lead, trail, by rw [hx, List.append_assoc], hne, hslash, .inr ?_, htrail⟩
  rcases hlead with rfl | ⟨l, rfl⟩
  · obtain ⟨d, r, rfl⟩ := List.exists_cons_of_ne_nil hne
    obtain ⟨rfl, -⟩ := List.cons.inj hx
    exact absurd List.mem_cons_self hslash
  · exact ⟨s ++ l, (List.append_assoc ..).symm⟩

/-- A part that is not the one with the byte `b` stands behind it, and what is before the byte has
    no say. -/
theorem LastPart.behind {b : UInt8} (h : LastPart (s ++ b :: x) c) (hc : b ∉ c) (hb : b ≠ slash)
    (t : Bytes) :
    LastPart (t ++ b :: x) c := by
  obtain ⟨lead, trail, hx, hne, hslash, hlead, htrail⟩ := h
  have hnot : b ∉ c ++ trail := by
    rw [List.mem_append]
    rintro (hmem | hmem)
    · exact hc hmem
    · exact hb (htrail b hmem)
  -- the byte stands before the part or in what comes from there on, and the latter is excluded
  rcases List.append_eq_append_iff.mp hx with ⟨l, rfl, hl⟩ | ⟨l, -, hl⟩
  · cases l with
    | nil => exact absurd (hl ▸ List.mem_cons_self) hnot
    | cons e l =>
      obtain ⟨rfl, hl⟩ := List.cons.inj hl
      refine ⟨t ++ b :: l, trail, by simp [hl], hne, hslash, .inr ?_, htrail⟩
      -- the slash before the part is behind the byte
      rcases hlead with hnil | ⟨m, hm⟩
      · exact absurd hnil (by simp)
      · rcases List.eq_nil_or_concat l with rfl | ⟨l', e, hconcat⟩
        · exact absurd (List.append_inj' hm rfl).2 (by simp [hb])
        · obtain rfl := hconcat.trans List.concat_eq_append
          rw [← List.cons_append, ← List.append_assoc] at hm
          obtain ⟨-, he⟩ := List.append_inj' hm rfl
          exact ⟨t ++ b :: l', by rw [he]; simp⟩
  · exact absurd (hl ▸ List.mem_append_right l List.mem_cons_self) hnot

end Path

namespace Uri

open Ascii MarkupLint.Path

variable {u p q x c : Bytes}

/-! ## Where a path is written -/

theorem decode?_percent (h l : UInt8) (r : Bytes) : decode? (percent :: h :: l :: r) =
    (hexValue? h).bind fun a => (hexValue? l).bind fun b =>
      (decode? r).map ((a * 16 + b) :: ·) := by
  rw [decode?, if_pos rfl]
  cases hexValue? h <;> cases hexValue? l <;> cases decode? r <;> rfl

/-- A slash is no part of an escape. -/
theorem decode?_append_slash (x y : Bytes) :
    decode? (x ++ slash :: y) = (decode? x).bind fun a => (decode? y).map (a ++ slash :: ·) := by
  induction x using decode?.induct with
  | case1 =>
    rw [List.nil_append, decode?_cons_of_ne (by decide)]
    rfl
  | case2 h l r a b t ht hl hh ih =>
    simp [decode?_percent, hh, hl, ht, ih, Function.comp_def]
  -- what looks like an escape and is none spoils both sides
  | case3 h l r hnone ih =>
    simp only [List.cons_append, decode?_percent, ih]
    cases hexValue? h <;> cases hexValue? l <;> cases decode? r <;> simp [Function.comp_def]
  | case4 r hr =>
    -- the escape is cut short by the slash
    match r with
    | [] =>
      cases y with
      | nil => decide
      | cons l y => simp [decode?_percent, show hexValue? slash = none by decide]; rfl
    | [h] => simp [decode?_percent, show hexValue? slash = none by decide]; rfl
    | h :: l :: r => exact absurd rfl (hr h l r)
  | case5 b r hb ih =>
    simp only [List.cons_append, decode?_cons_of_ne hb, ih]
    cases decode? r <;> simp [Function.comp_def]

/-- Without escapes a text means itself. -/
theorem decode?_of_not_mem (h : percent ∉ x) : decode? x = some x := by
  induction x with
  | nil => rfl
  | cons b r ih =>
    rw [List.mem_cons, not_or] at h
    rw [decode?_cons_of_ne (Ne.symm h.1), ih h.2]
    rfl

/-- The last part of what is written, if it has no escape, is the last part of what is meant. -/
theorem lastPart_of_decode? (h : LastPart x c) (hc : percent ∉ c) (hq : decode? x = some q) :
    LastPart q c := by
  obtain ⟨lead, trail, rfl, hne, hslash, hlead, htrail⟩ := h
  have hplain : decode? (c ++ trail) = some (c ++ trail) := by
    refine decode?_of_not_mem fun hmem => ?_
    rcases List.mem_append.mp hmem with hmem | hmem
    · exact hc hmem
    · exact absurd (htrail _ hmem) (by decide)
  rcases hlead with rfl | ⟨s, rfl⟩
  · obtain rfl := Option.some.inj (hplain.symm.trans hq)
    exact ⟨[], trail, rfl, hne, hslash, .inl rfl, htrail⟩
  · rw [List.append_assoc, List.singleton_append, decode?_append_slash, hplain] at hq
    obtain ⟨a, -, ha⟩ := Option.bind_eq_some_iff.mp hq
    obtain rfl := Option.some.inj ha
    exact ⟨a ++ [slash], trail, by simp, hne, hslash, .inr ⟨a, rfl⟩, htrail⟩

/-- What is left behind the scheme is the end of the URI. -/
theorem scheme?_suffix {name : Bytes} (h : scheme? u = some (name, x)) : x <:+ u := by
  unfold scheme? at h
  split at h
  · simp_all
  · rename_i b r
    split at h
    · exact absurd h (by simp)
    · split at h
      · simp_all
      · simp only at h
        split at h
        · rename_i a l hdrop
          split at h
          · obtain ⟨-, rfl⟩ := Prod.mk.inj (Option.some.inj h)
            exact (List.suffix_cons _ _).trans (hdrop ▸ List.drop_suffix _ _)
          · simp_all
        · simp_all

/-- Behind the host, a path either is empty or begins with a slash. -/
theorem drop_takeWhile_slash (x : Bytes) :
    x.drop (x.takeWhile (· != slash)).length = [] ∨
      ∃ s w, x = s ++ slash :: w ∧ x.drop (x.takeWhile (· != slash)).length = slash :: w := by
  induction x with
  | nil => exact .inl rfl
  | cons b r ih =>
    by_cases hb : b = slash
    · exact .inr ⟨[], r, by simp [hb], by simp [hb]⟩
    · simp only [List.takeWhile_cons, bne_iff_ne, ne_eq, hb, not_false_eq_true, if_true,
        List.length_cons, List.drop_succ_cons]
      exact ih.imp_right fun ⟨s, w, hr, hdrop⟩ => ⟨b :: s, w, by rw [hr]; rfl, hdrop⟩

/-- Where the path of a URI with a scheme comes from: there is none, or it is all that comes before
    the query, or what is left of this behind a host. -/
theorem split?_eq_some {scheme : Bytes} (h : split? u = some (scheme, q)) (hscheme : scheme ≠ []) :
    ∃ rest, scheme? u = some (scheme, rest) ∧
      (q = [] ∨ (∃ r, rest.takeWhile (· != question) = slash :: r ∧ decode? (slash :: r) = some q) ∨
        ∃ r, rest.takeWhile (· != question) = slash :: slash :: r ∧
          decode? (r.drop (r.takeWhile (· != slash)).length) = some q) := by
  have hempty : scheme.isEmpty = false := by simpa using hscheme
  simp only [split?] at h
  split at h
  case isTrue => exact absurd h (by simp)
  split at h
  case isTrue => exact absurd (Prod.mk.inj (Option.some.inj h)).1.symm hscheme
  cases hname : scheme? u with
  | none => rw [hname] at h; exact absurd h (by simp)
  | some parts =>
    obtain ⟨name, rest⟩ := parts
    simp only [hname] at h
    cases hrest : rest.takeWhile (· != question) with
    | nil =>
      simp only [hrest] at h
      split at h
      case isTrue => exact absurd h (by simp)
      obtain ⟨rfl, rfl⟩ := Prod.mk.inj (Option.some.inj h)
      exact ⟨rest, rfl, .inl rfl⟩
    | cons a r =>
      simp only [hrest] at h
      split at h
      case isTrue =>
        split at h
        case isTrue => exact absurd h (by simp)
        obtain ⟨rfl, rfl⟩ := Prod.mk.inj (Option.some.inj h)
        exact ⟨rest, rfl, .inl rfl⟩
      case isFalse ha =>
        obtain rfl := Decidable.not_not.mp ha
        split at h
        case isTrue hhost =>
          simp only [Bool.and_eq_true, decide_eq_true_eq] at hhost
          obtain ⟨l, rfl⟩ := List.head?_eq_some_iff.mp hhost.2
          split at h
          case isFalse => exact absurd h (by simp)
          obtain ⟨q', hq, heq⟩ := Option.map_eq_some_iff.mp h
          obtain ⟨rfl, rfl⟩ := Prod.mk.inj heq
          exact ⟨rest, rfl, .inr (.inr ⟨l, hrest, hq⟩)⟩
        case isFalse =>
          obtain ⟨q', hq, heq⟩ := Option.map_eq_some_iff.mp h
          obtain ⟨rfl, rfl⟩ := Prod.mk.inj heq
          exact ⟨rest, rfl, .inr (.inl ⟨r, hrest, hq⟩)⟩

/-- A path that is not empty is written in the end of its URI, unless there is a query, from a slash
    on. -/
theorem exists_written (h : path u = .ok p) (hquery : question ∉ u) (hp : p ≠ []) :
    ∃ s w q, u = s ++ slash :: w ∧ decode? (slash :: w) = some q ∧ p = dropDriveSlash q := by
  obtain ⟨q, hsplit, rfl⟩ : ∃ q, split? u = some (Bytes.ofString "file", q) ∧
      p = dropDriveSlash q := by
    unfold path at h
    split at h
    · exact absurd h (by simp)
    · split at h
      case isFalse => exact absurd h (by simp)
      rename_i scheme q hsplit hfile
      exact ⟨q, hfile ▸ hsplit, (Except.ok.inj h).symm⟩
  have hq : q ≠ [] := by
    rintro rfl
    exact hp rfl
  obtain ⟨rest, hname, hfrom⟩ := split?_eq_some hsplit (by decide)
  obtain ⟨s, rfl⟩ := scheme?_suffix hname
  -- without a query, all behind the scheme is the host and the path
  have hall : rest.takeWhile (· != question) = rest := by
    refine List.takeWhile_eq_self_iff.mpr fun b hb => bne_iff_ne.mpr ?_
    rintro rfl
    exact hquery (List.mem_append_right s hb)
  rw [hall] at hfrom
  rcases hfrom with hnil | ⟨r, rfl, hr⟩ | ⟨r, rfl, hr⟩
  · exact absurd hnil hq
  · exact ⟨s, r, q, rfl, hr, rfl⟩
  · rcases drop_takeWhile_slash r with hnil | ⟨l, w, hl, hdrop⟩
    · rw [hnil] at hr
      exact absurd (Option.some.inj hr).symm hq
    · exact ⟨s ++ slash :: slash :: l, w, q, by simp [hl], hdrop ▸ hr, rfl⟩

/-- Taking the slash away from before a drive does not touch the last part, which stands behind the
    colon. -/
theorem lastPart_dropDriveSlash (hc : colon ∉ c) :
    LastPart (dropDriveSlash q) c ↔ LastPart q c := by
  by_cases hdrive : HasDriveSlash q
  · obtain ⟨a, r, rfl, ha, hr⟩ := hasDriveSlash_iff.mp hdrive
    rw [dropDriveSlash_of_drive ha hr]
    exact ⟨fun h => h.behind (s := [upper a]) hc (by decide) [slash, a],
      fun h => h.behind (s := [slash, a]) hc (by decide) [upper a]⟩
  · rw [dropDriveSlash_of_not hdrive]

/-- What is more than slashes is not written in slashes only. -/
theorem exists_ne_slash_of_decode? (h : decode? x = some q)
    (hq : ∃ b ∈ dropDriveSlash q, b ≠ slash) :
    ∃ b ∈ x, b ≠ slash := by
  refine Decidable.not_not.mp fun hnone => ?_
  have hall : ∀ b ∈ x, b = slash := fun b hb => Decidable.not_not.mp fun hne => hnone ⟨b, hb, hne⟩
  obtain rfl : x = q := by
    rw [decode?_of_not_mem fun hmem => absurd (hall _ hmem) (by decide)] at h
    exact Option.some.inj h
  have hdrive : ¬ HasDriveSlash x := by
    intro hdrive
    obtain ⟨a, r, rfl, -, -⟩ := hasDriveSlash_iff.mp hdrive
    exact absurd (hall colon (by simp)) (by decide)
  rw [dropDriveSlash_of_not hdrive] at hq
  exact hnone hq

end Uri

/-! ## Events of files -/

open Ascii ConfigLookup

namespace FileEvent

/-- The URI is one of this path and has no query, and the path is more than slashes. -/
structure Plain (e : FileEvent) (p : Bytes) : Prop where
  path : Uri.path (Bytes.ofString e.uri) = .ok p
  noQuery : question ∉ Bytes.ofString e.uri
  named : ∃ b ∈ p, b ≠ slash

/-- The last part of the URI is written without escapes. -/
def Literal (e : FileEvent) : Prop := Uri.percent ∉ Path.base (Bytes.ofString e.uri)

end FileEvent

theorem ConfigLookup.IsMarker.not_mem {name : Bytes} (h : IsMarker name) :
    Uri.percent ∉ name ∧ Uri.colon ∉ name := by
  rcases h with rfl | rfl <;> decide

namespace Server

variable {e : FileEvent} {p : Bytes}

/-- The server goes by the last part of the URI as it is written. -/
theorem concernsConfig_iff :
    concernsConfig e = true ↔ IsMarker (Path.base (Bytes.ofString e.uri)) := by
  rw [concernsConfig, affectsConfig_iff, Path.base_base]

/-- The URI and the path are told apart alike, if the name of the file is written as it is. -/
theorem concernsConfig_iff_of_plain (h : e.Plain p) :
    concernsConfig e = true ↔ affectsConfig p = true ∧ e.Literal := by
  obtain ⟨s, w, q, hu, hw, rfl⟩ := Uri.exists_written h.path h.noQuery (by
    rintro rfl
    exact absurd h.named (by simp))
  obtain ⟨c, hc⟩ := Path.exists_lastPart (Uri.exists_ne_slash_of_decode? hw h.named)
  have hbase : Path.base (Bytes.ofString e.uri) = c := by
    rw [hu]
    exact Path.base_of_lastPart (hc.append s)
  rw [concernsConfig_iff, FileEvent.Literal, hbase, affectsConfig_iff]
  constructor
  · intro hmarker
    obtain ⟨hpercent, hcolon⟩ := hmarker.not_mem
    have hpart := Uri.lastPart_of_decode? hc hpercent hw
    rw [Path.base_of_lastPart ((Uri.lastPart_dropDriveSlash hcolon).mpr hpart)]
    exact ⟨hmarker, hpercent⟩
  · -- without an escape the part that is written is the one that is meant
    rintro ⟨hmarker, hpercent⟩
    obtain ⟨c', hc'⟩ := Path.exists_lastPart h.named
    rw [Path.base_of_lastPart hc'] at hmarker
    have hpart := (Uri.lastPart_dropDriveSlash hmarker.not_mem.2).mp hc'
    rw [← Path.base_of_lastPart (Uri.lastPart_of_decode? hc hpercent hw),
      Path.base_of_lastPart hpart]
    exact hmarker

end Server

/-! ## The watcher -/

namespace Watcher

variable {fs : FileSystem} {w : Watcher} {cs : List (FileChange × Bytes)}

/-- The watcher after these changes. -/
def after (fs : FileSystem) (w : Watcher) (cs : List (FileChange × Bytes)) : Watcher :=
  cs.foldl (fun w c => (w.step fs (.changed c.1 c.2)).1) w

/-- When time has run out after these changes, the watcher hands on the path of one of them. -/
def Reports (fs : FileSystem) (w : Watcher) (cs : List (FileChange × Bytes)) : Prop :=
  ∃ batch, ((w.after fs cs).step fs .expired).2.1 = some batch ∧ ∃ c ∈ cs, c.2 ∈ batch

/-- After these changes those of configuration files are pending besides what was, and time runs if
    there was one. -/
theorem after_spec (w : Watcher) (cs : List (FileChange × Bytes)) (q : Bytes) :
    (q ∈ (w.after fs cs).pending ↔ (affectsConfig q = true ∧ ∃ c ∈ cs, c.2 = q) ∨ q ∈ w.pending) ∧
    ((w.after fs cs).armed = true ↔ (∃ c ∈ cs, affectsConfig c.2 = true) ∨ w.armed = true) := by
  induction cs generalizing w with
  | nil => simp [after]
  | cons c cs ih =>
    have heffect := effect_of_change fs w c.1 c.2
    obtain ⟨ihpending, iharmed⟩ := ih (w.step fs (.changed c.1 c.2)).1
    refine ⟨ihpending.trans ?_, iharmed.trans ?_⟩
    · rw [heffect.mem_pending_iff, WatchEvent.configChange?_changed]
      simp only [List.mem_cons, exists_eq_or_imp, and_or_left, or_assoc, or_left_comm]
    · simp only [heffect.armed_iff, WatchEvent.configChange?_changed, List.mem_cons,
        exists_eq_or_imp, exists_eq_right', or_assoc, or_left_comm]

/-- A watcher that has nothing to hand on reports one of the paths exactly if one is of a
    configuration file. -/
theorem reports_iff (hw : w.pending = []) :
    w.Reports fs cs ↔ ∃ c ∈ cs, affectsConfig c.2 = true := by
  have hout : ∀ batch, ((w.after fs cs).step fs .expired).2.1 = some batch ↔
      (w.after fs cs).armed = true ∧ batch = (w.after fs cs).pending := fun batch => by
    rw [(effect_of_step fs (w.after fs cs) .expired).out_eq, eq_self, true_and]
  constructor
  · rintro ⟨batch, hbatch, c, hc, hmem⟩
    obtain ⟨-, rfl⟩ := (hout batch).mp hbatch
    refine ⟨c, hc, ?_⟩
    rcases (after_spec w cs c.2).1.mp hmem with ⟨haffects, -⟩ | hmem
    · exact haffects
    · rw [hw] at hmem
      exact absurd hmem List.not_mem_nil
  · rintro ⟨c, hc, haffects⟩
    have harmed : (w.after fs cs).armed = true :=
      (after_spec w cs c.2).2.mpr (.inl ⟨c, hc, haffects⟩)
    exact ⟨(w.after fs cs).pending, (hout _).mpr ⟨harmed, rfl⟩, c, hc,
      (after_spec w cs c.2).1.mpr (.inl ⟨haffects, c, hc, rfl⟩)⟩

end Watcher

/-- An object with one member is put in order by putting the member in order. -/
theorem Json.tidy_single (name : String) (v : Json) :
    (obj [(name, v)]).tidy = obj [(name, v.tidy)] := by
  rw [tidy, tidyMembers, tidyMembers]
  exact congrArg obj (List.mergeSort_singleton _)

/-! ## The server -/

namespace Server

variable {s s' : Server} {fs : FileSystem} {trigger : Trigger} {uri : String} {d : Document}

/-- Timers that are left to set are set. -/
theorem foldl_work_schedules {us : List String} (htasks : s.tasks = us.map (.schedule · trigger))
    (out : List ServerOutput) :
    s.tasks.foldl (fun r _ => Reaction.andThen r fun s => (s.step fs .work).getD (s, [])) (s, out) =
      scheduleEach trigger us ({ s with tasks := [] }, out) := by
  induction us generalizing s out with
  | nil =>
    have hnil : s.tasks = [] := htasks
    rw [hnil, List.foldl_nil, ← hnil]
    rfl
  | cons u us ih =>
    have hstep : s.step fs .work =
        some ({ s with tasks := us.map (.schedule · trigger) }.schedule u trigger) := by
      simp only [step, htasks, List.map_cons, perform]
    -- the first timer is set, and those of the others are left
    generalize hs' : { s with tasks := us.map (.schedule · trigger) }.schedule u trigger =
      r at hstep
    have hrest : r.1.tasks = us.map (.schedule · trigger) := by rw [← hs']; rfl
    have hfirst : (Reaction.andThen (s, out) fun s => (s.step fs .work).getD (s, [])) =
        (r.1, out ++ r.2) := by
      simp only [Reaction.andThen, hstep, Option.getD_some]
    rw [htasks, List.map_cons, List.foldl_cons, hfirst, ← hrest, ih hrest, ← hs']
    rfl

/-- What is left to do is done, which is to set timers. -/
theorem workOff_schedules (us : List String) (trigger : Trigger)
    (htasks : s.tasks = us.map (.schedule · trigger)) :
    workOff fs s = scheduleEach trigger us ({ s with tasks := [] }, []) :=
  foldl_work_schedules htasks []

/-- The client sends a message about these changes of files, and the server can take it in. -/
structure Tells (s : Server) (j : Json) (es : List FileEvent) : Prop where
  connected : s.isConnected = true
  idle : s.tasks = []
  message : ∃ params ps, DidChangeFiles.codec.readOne params = .ok ps ∧ ps.changes.getD [] = es ∧
    ServerEvent.ofJson j = .receive (.notification "workspace/didChangeWatchedFiles" (some params))

/-- What comes of such a message: the timers of all open documents are set if the server finds that
    one of the URIs matters, and otherwise nothing changes. -/
theorem Tells.deliver {j : Json} {es : List FileEvent} (h : Tells s j es) (fs : FileSystem) :
    (s.deliver fs j).1 = if es.any concernsConfig then (s.scheduleAll .configChanged).1 else s := by
  obtain ⟨params, ps, hps, rfl, hj⟩ := h.message
  have hself : { s with tasks := [] } = s := by rw [← h.idle]
  have hreceive : s.step fs (ServerEvent.ofJson j) =
      some ({ (s.onFiles ps).server with tasks := (s.onFiles ps).tasks },
        (s.onFiles ps).output) := by
    have hhandle : s.handle fs "workspace/didChangeWatchedFiles" (some params) false =
        s.onFiles ps := by
      rw [show s.handle fs "workspace/didChangeWatchedFiles" (some params) false =
        s.withParams DidChangeFiles.codec (some params) s.onFiles from rfl, withParams]
      simp only [hps]
    simp only [hj, step, h.connected, h.idle, List.isEmpty_nil, Bool.and_self, if_true, receive,
      hhandle]
    unfold onFiles
    split <;> simp
  simp only [Server.deliver, hreceive, Option.getD_some, Reaction.andThen]
  unfold onFiles
  split
  · rw [workOff_schedules s.workspace.documents.uris .configChanged rfl, hself]
    rfl
  · rw [workOff_schedules [] .configChanged rfl, hself]
    rfl

/-- The server does about a message what it would do if its own watcher had seen the files at these
    paths change: it has all open documents linted again if the watcher reports one of them, and
    otherwise nothing changes. -/
def FilteredAlike (fs : FileSystem) (s : Server) (j : Json) (paths : List Bytes) : Prop :=
  ∀ w cs, Watcher.pending w = [] → cs.map Prod.snd = paths →
    (w.Reports fs cs → Revalidated .configChanged s (s.deliver fs j).1) ∧
    (¬ w.Reports fs cs → (s.deliver fs j).1 = s)

/-- As soon as a document is open, all depends on whether the URIs and the paths are told apart
    alike. -/
theorem Tells.filteredAlike_iff {j : Json} {es : List FileEvent} (h : Tells s j es)
    (hd : s.workspace.documents.get? uri = some d) (fs : FileSystem) (paths : List Bytes) :
    FilteredAlike fs s j paths ↔
      ((∃ e ∈ es, concernsConfig e = true) ↔ ∃ p ∈ paths, affectsConfig p = true) := by
  have hdeliver := h.deliver fs
  rw [← List.any_eq_true]
  constructor
  · intro halike
    -- a watcher that has not seen anything yet
    obtain ⟨hreported, hnot⟩ :=
      halike ⟨[], [], false⟩ (paths.map ({}, ·)) rfl (by simp [Function.comp_def])
    rw [Watcher.reports_iff rfl] at hreported hnot
    simp only [List.mem_map, exists_exists_and_eq_and] at hreported hnot
    constructor
    · intro hany
      refine Decidable.not_not.mp fun hnone => ?_
      rw [hdeliver, if_pos hany] at hnot
      exact (revalidated_scheduleAll s _).ne hd (hnot hnone)
    · intro hsome
      refine Decidable.not_not.mp fun hnone => ?_
      rw [hdeliver, if_neg hnone] at hreported
      exact (hreported hsome).ne hd rfl
  · intro heq w cs hw hcs
    have hreports : w.Reports fs cs ↔ es.any concernsConfig = true := by
      rw [heq, Watcher.reports_iff hw, ← hcs]
      simp only [List.mem_map, exists_exists_and_eq_and]
    rw [hreports, hdeliver]
    constructor
    · intro hany
      rw [if_pos hany]
      exact revalidated_scheduleAll s _
    · intro hnone
      rw [if_neg hnone]

/-- **Changes of files that the client tells of are told apart as the server's own watcher does it,
    up to how names are written.** The server looks at the text of a URI where the watcher looks at
    a path, and they agree where the texts and the paths have the names of configuration files
    alike. If the URIs have no queries and their paths are more than slashes, they differ in one
    case only: the changes are some of configuration files, and the name of each of these is written
    with an escape. -/
theorem filteredAlike_iff_literal (fs : FileSystem) {j : Json} {es : List FileEvent}
    {paths : List Bytes} (h : Tells s j es)
    (hpaths : es.map (fun e => Uri.path (Bytes.ofString e.uri)) = paths.map .ok)
    (hd : s.workspace.documents.get? uri = some d) :
    (FilteredAlike fs s j paths ↔
      ((∃ e ∈ es, affectsConfig (Bytes.ofString e.uri) = true) ↔
        ∃ p ∈ paths, affectsConfig p = true)) ∧
    ((∀ e ∈ es, ∃ p, e.Plain p) →
      (FilteredAlike fs s j paths ↔ ((∃ p ∈ paths, affectsConfig p = true) →
        ∃ e ∈ es, ∃ p, e.Plain p ∧ affectsConfig p = true ∧ e.Literal))) := by
  rw [h.filteredAlike_iff hd fs paths]
  -- the paths are those of the URIs
  have hmem : ∀ p, p ∈ paths ↔ ∃ e ∈ es, Uri.path (Bytes.ofString e.uri) = .ok p := by
    intro p
    have hok : p ∈ paths ↔ (Except.ok p : Except Uri.UriError Bytes) ∈ paths.map .ok := by simp
    rw [hok, ← hpaths, List.mem_map]
  refine ⟨?_, fun hplain => ⟨fun heq hsome => ?_, fun himp => ⟨?_, fun hsome => ?_⟩⟩⟩
  · simp only [concernsConfig_iff, affectsConfig_iff]
  · obtain ⟨e, he, hconcerns⟩ := heq.mpr hsome
    obtain ⟨p, hp⟩ := hplain e he
    exact ⟨e, he, p, hp, (concernsConfig_iff_of_plain hp).mp hconcerns⟩
  · rintro ⟨e, he, hconcerns⟩
    obtain ⟨p, hp⟩ := hplain e he
    exact ⟨p, (hmem p).mpr ⟨e, he, hp.path⟩, ((concernsConfig_iff_of_plain hp).mp hconcerns).1⟩
  · obtain ⟨e, he, p, hp, hboth⟩ := himp hsome
    exact ⟨e, he, (concernsConfig_iff_of_plain hp).mpr hboth⟩

/-- A server in which a document is open. -/
def attending : Server :=
  { workspace := ({} : Workspace).openDocument "file:///w/a.html" "html" 1 [] }

/-- The message that a file has changed. -/
def telling (u : String) : Json :=
  .obj [("jsonrpc", .str "2.0"), ("method", .str "workspace/didChangeWatchedFiles"),
    ("params", .obj [("changes", .arr [.obj [("uri", .str u)]])])]

/-- The message tells of the file. -/
theorem tells_telling {u : String}
    (hheading : Heading.codec.readOne (telling u) =
      .ok { method := some "workspace/didChangeWatchedFiles" }) :
    Tells attending (telling u) [⟨u, 0⟩] := by
  have hcall : ClientMessage.ofJson? (telling u) =
      some (.notification "workspace/didChangeWatchedFiles"
        (some (Json.obj [("changes", .arr [.obj [("uri", .str u)]])]).tidy)) := by
    rw [ClientMessage.ofJson?, hheading]
    rfl
  rw [Json.tidy_single, Json.tidy, Json.tidyElements, Json.tidy_single] at hcall
  refine ⟨rfl, rfl, .obj [("changes", .arr [.obj [("uri", .str u)]])], ⟨some [⟨u, 0⟩]⟩,
    rfl, rfl, ?_⟩
  rw [ServerEvent.ofJson, hcall]
  rfl

theorem attending_opened : ∃ d, attending.workspace.documents.get? "file:///w/a.html" = some d :=
  ⟨_, rfl⟩

/-- An escape in the name of a directory makes no difference. -/
theorem filteredAlike_iff_literal_directory :
    FilteredAlike .empty attending (telling "file:///w%2E/.htmllintrc")
      [Bytes.ofString "/w./.htmllintrc"] := by
  have hplain : FileEvent.Plain ⟨"file:///w%2E/.htmllintrc", 0⟩
      (Bytes.ofString "/w./.htmllintrc") :=
    ⟨by decide +kernel, by decide, by decide⟩
  have hpaths : [⟨"file:///w%2E/.htmllintrc", 0⟩].map
      (fun e : FileEvent => Uri.path (Bytes.ofString e.uri)) =
      [Bytes.ofString "/w./.htmllintrc"].map .ok := congrArg (fun p => [p]) hplain.path
  have hliteral : FileEvent.Literal ⟨"file:///w%2E/.htmllintrc", 0⟩ := by
    unfold FileEvent.Literal
    decide
  obtain ⟨d, hd⟩ := attending_opened
  refine ((filteredAlike_iff_literal .empty (tells_telling rfl) hpaths hd).2 ?_).mpr fun _ => ?_
  · simpa using ⟨_, hplain⟩
  · exact ⟨_, List.mem_singleton_self _, _, hplain, by decide, hliteral⟩

/-- Two URIs of one configuration file: the server passes over the one in which the name has an
    escape. -/
theorem not_filteredAlike_escaped :
    Uri.path (Bytes.ofString "file:///w/%2Ehtmllintrc") = .ok (Bytes.ofString "/w/.htmllintrc") ∧
    Uri.path (Bytes.ofString "file:///w/.htmllintrc") = .ok (Bytes.ofString "/w/.htmllintrc") ∧
    ¬ FilteredAlike .empty attending (telling "file:///w/%2Ehtmllintrc")
      [Bytes.ofString "/w/.htmllintrc"] ∧
    FilteredAlike .empty attending (telling "file:///w/.htmllintrc")
      [Bytes.ofString "/w/.htmllintrc"] := by
  obtain ⟨d, hd⟩ := attending_opened
  refine ⟨by decide +kernel, by decide +kernel, ?_, ?_⟩
  · rw [(tells_telling rfl).filteredAlike_iff hd]
    decide
  · rw [(tells_telling rfl).filteredAlike_iff hd]
    decide

end Server
end MarkupLint
