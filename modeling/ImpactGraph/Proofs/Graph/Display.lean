import ImpactGraph.Proofs.Path.Units
import ImpactGraph.Proofs.SortedMap
import ImpactGraph.Report.Scan

/-!
# What is shown of a snapshot leads back to it

A path of a snapshot is shown without the root, where it lies below the root, and as it is written
elsewhere.  `lookup?_shown` says that what is shown of a key is looked up under that key, whatever
the root is and wherever the key lies, so that no two keys are shown alike and a report lists every
file (`retraces`).

The paths that this is about are `Rooted`: absolute, and clean.  If their names may be any bytes,
then what is left of them below the root has to be a text (`Snapshot.Legible`): names that are none
can be shown alike.
-/

set_option autoImplicit false

namespace ImpactGraph

namespace Entries

open Std

variable {κ ν : Type} {cmp : κ → κ → Ordering} [TransCmp cmp] [LawfulEqCmp cmp]

variable (cmp) in
/-- Entries under keys that all differ are those of the map that they are put into. -/
theorem perm_foldl_insert {es : List (κ × ν)} (h : (es.map Prod.fst).Nodup) :
    (es.foldl (fun fs e ↦ insert cmp e.1 e.2 fs) []).Perm es := by
  have hnodup : ((es.foldl (fun fs e ↦ insert cmp e.1 e.2 fs) []).map Prod.fst).Nodup := by
    have hkeys := SortedMap.nodup_keys (SortedMap.ofList es : SortedMap κ ν cmp)
    rwa [SortedMap.keys, SortedMap.ofList, SortedMap.entries_foldl] at hkeys
  have hreverse : (es.reverse.map Prod.fst).Nodup := by rwa [List.map_reverse, List.nodup_reverse]
  refine (List.perm_ext_iff_of_nodup hnodup.of_map h.of_map).2 fun e ↦ ?_
  obtain ⟨k, v⟩ := e
  have hget {fs : List (κ × ν)} (hfs : (fs.map Prod.fst).Nodup) :
      get? cmp k fs = some v ↔ (k, v) ∈ fs := get?_eq_some_iff_of_nodup hfs
  rw [← hget hnodup, get?_foldl_insert, get?_nil, Option.or_none, hget hreverse, List.mem_reverse]

end Entries

/-! ## What is left of a path below another one -/

namespace Path

variable {p base : Path} {rest : List Part}

theorem filterMap_dropParts (n : Nat) (segments : List (List Char)) :
    (dropParts n segments).filterMap Part.ofSegment =
      (segments.filterMap Part.ofSegment).drop n := by
  induction segments generalizing n with
  | nil => cases n <;> rfl
  | cons segment segments ih =>
    cases n with
    | zero => rfl
    | succ n =>
      rw [dropParts]
      cases hsegment : Part.ofSegment segment with
      | none => rw [Option.isNone_none, if_pos rfl, ih, List.filterMap_cons_none hsegment]
      | some part =>
        rw [Option.isNone_some, if_neg Bool.false_ne_true, ih, List.filterMap_cons_some hsegment,
          List.drop_succ_cons]

theorem dropParts_suffix (n : Nat) (segments : List (List Char)) :
    dropParts n segments <:+ segments := by
  induction segments generalizing n with
  | nil => cases n <;> exact List.suffix_rfl
  | cons segment segments ih =>
    cases n with
    | zero => exact List.suffix_rfl
    | succ n =>
      rw [dropParts]
      split
      · exact (ih _).trans (List.suffix_cons _ _)
      · exact (ih _).trans (List.suffix_cons _ _)

theorem filterMap_dropWhile_isNone (segments : List (List Char)) :
    (segments.dropWhile fun s ↦ (Part.ofSegment s).isNone).filterMap Part.ofSegment =
      segments.filterMap Part.ofSegment := by
  induction segments with
  | nil => rfl
  | cons segment segments ih =>
    rw [List.dropWhile_cons]
    cases hsegment : Part.ofSegment segment with
    | none => rw [Option.isNone_none, if_pos rfl, ih, List.filterMap_cons_none hsegment]
    | some part => rw [Option.isNone_some, if_neg Bool.false_ne_true]

theorem dropTail_prefix (segments : List (List Char)) : dropTail segments <+: segments := by
  rw [dropTail, ← List.reverse_suffix, List.reverse_reverse]
  exact List.dropWhile_suffix _

/-- Segments that start with one that counts are the text of a relative path. -/
theorem isAbsolute_joinSegments {segments : List (List Char)}
    (hslash : ∀ segment ∈ segments, '/' ∉ segment)
    (hfirst : ∀ first, segments.head? = some first → Part.ofSegment first ≠ none) :
    (ofText (joinSegments segments)).isAbsolute = false ∧
      (ofText (joinSegments segments)).added = segments.filterMap Part.ofSegment := by
  cases segments with
  | nil => exact ⟨rfl, rfl⟩
  | cons first segments =>
    have hne : first ≠ [] := by
      rintro rfl
      exact hfirst _ rfl rfl
    obtain ⟨c, chars, rfl⟩ := List.exists_cons_of_ne_nil hne
    have htext : joinSegments ((c :: chars) :: segments) =
        String.ofList (List.intercalate ['/'] ((c :: chars) :: segments)) := if_neg (by simp)
    constructor
    · rw [isAbsolute, text_ofText, htext, String.toList_ofList]
      have hc : c ≠ '/' := by
        rintro rfl
        exact hslash _ List.mem_cons_self List.mem_cons_self
      cases segments <;> simpa using hc
    · rw [added, text_ofText, htext, String.toList_ofList,
        List.splitOn_intercalate '/' hslash (List.cons_ne_nil _ _)]

/-- The path below a directory adds to it what is left of the parts. -/
theorem exists_stripPrefix? (hbase : base.isAbsolute = true) (h : p.parts = base.parts ++ rest) :
    ∃ q, p.stripPrefix? base = some q ∧ q.isAbsolute = false ∧ q.added = rest := by
  have hroot := parts_of_isAbsolute hbase
  have hadded : p.added = base.added ++ rest := by
    rw [hroot, List.cons_append] at h
    exact (List.cons.inj ((parts_of_isAbsolute (isAbsolute_of_parts h)).symm.trans h)).2
  obtain ⟨text, htext⟩ := isAbsolute_iff.1 (isAbsolute_of_parts (p := p) (by rw [h, hroot]; rfl))
  have hsplit : p.text.toList.splitOn '/' = [] :: text.splitOn '/' := by
    rw [htext, ← List.nil_append ('/' :: text), List.splitOn_append_cons_self]
    rfl
  -- the segments that are left, and those of them that count
  generalize hleft : (dropParts base.added.length (text.splitOn '/')).dropWhile
    (fun s ↦ (Part.ofSegment s).isNone) = left
  have hstrip : p.stripPrefix? base = some (ofText (joinSegments (dropTail left))) := by
    have hbase : base.parts.isPrefixOf p.parts = true := by
      rw [List.isPrefixOf_iff_prefix, h]
      exact List.prefix_append _ _
    have hne : base.parts.isEmpty = false := by rw [hroot]; rfl
    have hlength : base.parts.length - 1 = base.added.length := by rw [hroot]; rfl
    simp only [stripPrefix?, hbase, hsplit, hne, hlength, hleft, if_true, Bool.false_eq_true,
      if_false, Bool.true_or, decide_true, dropTail]
  have hrest : (dropTail left).filterMap Part.ofSegment = rest := by
    rw [filterMap_dropTail, ← hleft, filterMap_dropWhile_isNone, filterMap_dropParts]
    have htail : (text.splitOn '/').filterMap Part.ofSegment = p.added := by
      rw [added, hsplit]
      rfl
    rw [htail, hadded, List.drop_left]
  have hslash : ∀ segment ∈ dropTail left, '/' ∉ segment := by
    intro segment hsegment
    have hmem := mem_of_mem_dropTail hsegment
    rw [← hleft] at hmem
    have htail := (dropParts_suffix _ _).subset ((List.dropWhile_suffix _).subset hmem)
    exact Text.not_mem_of_mem_splitOn htail
  have hfirst : ∀ first, (dropTail left).head? = some first → Part.ofSegment first ≠ none := by
    intro first hfirst hnone
    obtain ⟨segments, hsegments⟩ := List.head?_eq_some_iff.1 hfirst
    obtain ⟨dropped, hdropped⟩ := dropTail_prefix left
    have hhead := List.head?_dropWhile_not (fun s ↦ (Part.ofSegment s).isNone)
      (dropParts base.added.length (text.splitOn '/'))
    rw [hleft, ← hdropped, hsegments, List.cons_append, List.head?_cons] at hhead
    simp [hnone] at hhead
  obtain ⟨hrelative, hadded'⟩ := isAbsolute_joinSegments hslash hfirst
  exact ⟨_, hstrip, hrelative, hadded'.trans hrest⟩

/-- Absolute, and clean. -/
structure Rooted (p : Path) : Prop where
  isAbsolute : p.isAbsolute = true
  clean : p.clean = p

theorem rooted_iff : p.Rooted ↔ p.isAbsolute = true ∧ p.clean = p :=
  ⟨fun h ↦ ⟨h.isAbsolute, h.clean⟩, fun h ↦ ⟨h.1, h.2⟩⟩

instance (p : Path) : Decidable p.Rooted := decidable_of_iff _ rooted_iff.symm

theorem Rooted.parts_ne_nil (h : p.Rooted) : p.parts ≠ [] := by
  rw [parts_of_isAbsolute h.isAbsolute]
  exact List.cons_ne_nil _ _

end Path

/-! ## Looking up what is shown -/

namespace Snapshot

variable {s : Snapshot} {k l d : Path} {node : GraphNode}

/-- The root and the keys of a snapshot are absolute and clean. -/
structure Rooted (s : Snapshot) : Prop where
  root : s.root.Rooted
  keys : ∀ k ∈ s.nodes.keys, k.Rooted

theorem rooted_iff : s.Rooted ↔ s.root.Rooted ∧ ∀ k ∈ s.nodes.keys, k.Rooted :=
  ⟨fun h ↦ ⟨h.root, h.keys⟩, fun h ↦ ⟨h.1, h.2⟩⟩

instance (s : Snapshot) : Decidable s.Rooted := decidable_of_iff _ rooted_iff.symm

theorem mem_keys_of_mem_entries (h : (k, node) ∈ s.nodes.entries) : k ∈ s.nodes.keys :=
  List.mem_map_of_mem h

/-- A path is shown as what it adds to the root, or as it is. -/
theorem display_cases (hroot : s.root.Rooted) (d : Path) :
    (∃ q, Path.ofText (s.display d) = q ∧ q.isAbsolute = false ∧
      d.parts = s.root.parts ++ q.added) ∨
      (Path.ofText (s.display d) = d ∧ ¬s.root.parts <+: d.parts) := by
  rw [display, Path.ofText_text]
  by_cases hbelow : s.root.parts <+: d.parts
  · obtain ⟨rest, hrest⟩ := hbelow
    obtain ⟨q, hq, hrelative, hadded⟩ := Path.exists_stripPrefix? hroot.isAbsolute hrest.symm
    exact .inl ⟨q, by rw [hq, Option.getD_some], hrelative, by rw [hadded, hrest]⟩
  · have hnone : d.stripPrefix? s.root = none := if_neg (by rwa [List.isPrefixOf_iff_prefix])
    exact .inr ⟨by rw [hnone, Option.getD_none], hbelow⟩

/-- What is shown of a path stands for the path with the same parts that is clean. -/
theorem keyOf_display (hroot : s.root.Rooted) (hk : k.Rooted) (hd : d.parts = k.parts) :
    s.keyOf (.ofText (s.display d)) = k := by
  rcases display_cases hroot d with ⟨q, hq, hrelative, hadded⟩ | ⟨hself, -⟩
  · rw [hq, keyOf, hrelative, if_neg Bool.false_ne_true, ← hk.clean]
    refine Path.clean_congr ?_
    rw [Path.parts_join_of_relative hrelative hroot.parts_ne_nil, ← hadded, hd]
  · have habsolute : d.isAbsolute = true := Path.isAbsolute_congr hd.symm hk.isAbsolute
    rw [hself, keyOf, habsolute, if_pos rfl, Path.clean_congr hd, hk.clean]

/-- A path may as well be cleaned before it is looked up. -/
theorem lookup?_clean (h : s.root.Rooted) (p : Path) : s.lookup? p.clean = s.lookup? p := by
  have hkey : s.keyOf p.clean = s.keyOf p := by
    rw [keyOf, keyOf, Path.isAbsolute_clean, Path.clean_clean, Path.clean_join_clean h.parts_ne_nil]
  rw [lookup?, lookup?, hkey]

/-! ## Paths that can be shown -/

variable {u : Path.Units}

/-- Whether a text is what is left of a path below the root. -/
def Legible (u : Path.Units) (s : Snapshot) (p : Path) : Prop := u.Legible (.ofText (s.display p))

/-- Paths with the same parts have the same parts left below the root. -/
theorem added_display_congr (hroot : s.root.Rooted) (hk : k.isAbsolute = true)
    (hd : d.parts = k.parts) :
    (Path.ofText (s.display d)).added = (Path.ofText (s.display k)).added := by
  rcases display_cases hroot d with ⟨q, hq, -, hadded⟩ | ⟨hself, habove⟩
  · rcases display_cases hroot k with ⟨r, hr, -, hadded'⟩ | ⟨-, habove⟩
    · rw [hq, hr]
      exact List.append_cancel_left (by rw [← hadded, hd, hadded'])
    · exact absurd ⟨q.added, by rw [← hd, hadded]⟩ habove
  · rcases display_cases hroot k with ⟨r, hr, -, hadded⟩ | ⟨hself', -⟩
    · exact absurd ⟨r.added, by rw [hd, hadded]⟩ habove
    · have hparts := Path.parts_of_isAbsolute (Path.isAbsolute_congr hd.symm hk)
      rw [hd, Path.parts_of_isAbsolute hk] at hparts
      rw [hself, hself', (List.cons.inj hparts).2]

theorem Legible.congr (hroot : s.root.Rooted) (hk : k.isAbsolute = true) (h : s.Legible u k)
    (hd : d.parts = k.parts) : s.Legible u d :=
  h.of_added fun _ hpart ↦ added_display_congr hroot hk hd ▸ hpart

/-- What is left of a text below the root is one. -/
theorem legible_of_legible (hroot : s.root.Rooted) (hk : k.isAbsolute = true) (h : u.Legible k) :
    s.Legible u k := by
  rcases display_cases hroot k with ⟨q, hq, -, hadded⟩ | ⟨hself, -⟩
  · rw [Legible, hq]
    refine h.of_added fun part hpart ↦ ?_
    rw [Path.parts_of_isAbsolute hk, Path.parts_of_isAbsolute hroot.isAbsolute,
      List.cons_append] at hadded
    rw [(List.cons.inj hadded).2]
    exact List.mem_append_right _ hpart
  · rwa [Legible, hself]

end Snapshot

/-! ## Reports -/

namespace Report

open Snapshot

variable {u : Path.Units} {s : Snapshot} {k l d : Path} {node : GraphNode}

theorem spelled_shown (h : s.Legible u d) : u.spelled (shown u s d) = s.display d :=
  Path.Units.Legible.spelled_shown h

/-- A file is found under what is shown of its key, however the key is written. -/
theorem lookup?_shown (h : s.Rooted) (hk : (k, node) ∈ s.nodes.entries) (hlegible : s.Legible u k)
    (hd : d.parts = k.parts) : s.lookup? (.ofText (u.spelled (shown u s d))) = some (k, node) := by
  have hrooted := h.keys k (mem_keys_of_mem_entries hk)
  rw [spelled_shown (hlegible.congr h.root hrooted.isAbsolute hd), lookup?,
    keyOf_display h.root hrooted hd, SortedMap.find?_eq_some_iff]
  exact ⟨hk, Std.ReflCmp.compare_self⟩

theorem shown_inj (h : s.Rooted) (hk : k ∈ s.nodes.keys) (hl : l ∈ s.nodes.keys)
    (hk' : s.Legible u k) (hl' : s.Legible u l) (heq : shown u s k = shown u s l) : k = l := by
  rw [← keyOf_display h.root (h.keys k hk) rfl, ← spelled_shown hk', heq, spelled_shown hl',
    keyOf_display h.root (h.keys l hl) rfl]

/-- The files of a report, under what is shown of their keys. -/
def shownFiles (u : Path.Units) (s : Snapshot) : List (String × Json) :=
  s.nodes.entries.map fun (path, node) ↦ (shown u s path, nodeJson u s node)

theorem map_fst_shownFiles (u : Path.Units) (s : Snapshot) :
    (shownFiles u s).map Prod.fst = s.nodes.keys.map (shown u s) := by
  rw [shownFiles, SortedMap.keys, List.map_map, List.map_map]
  rfl

theorem nodup_shownFiles (h : s.Rooted) (hlegible : ∀ k ∈ s.nodes.keys, s.Legible u k) :
    ((shownFiles u s).map Prod.fst).Nodup := by
  rw [map_fst_shownFiles]
  exact List.Nodup.map_on
    (fun k hk l hl heq ↦ shown_inj h hk hl (hlegible k hk) (hlegible l hl) heq) s.nodes.nodup_keys

/-- What is shown of a snapshot leads back to it, where a text can be shown. -/
structure Retraces (u : Path.Units) (s : Snapshot) : Prop where
  /-- A text is left below the root of every key that is one. -/
  legible : ∀ k ∈ s.nodes.keys, u.Legible k → s.Legible u k
  /-- A file is found under what is shown of its key. -/
  lookup_shown : ∀ k node, (k, node) ∈ s.nodes.entries → s.Legible u k →
    s.lookup? (.ofText (u.spelled (shown u s k))) = some (k, node)
  /-- A path is found where its clean form is. -/
  lookup_clean : ∀ p, s.lookup? p = s.lookup? p.clean
  /-- No two keys are shown alike. -/
  shown_inj : ∀ k ∈ s.nodes.keys, ∀ l ∈ s.nodes.keys, s.Legible u k → s.Legible u l →
    shown u s k = shown u s l → k = l
  /-- A report lists each file once, under what is shown of its key. -/
  report : (∀ k ∈ s.nodes.keys, s.Legible u k) → ∀ issues,
    ∃ files, (scanJson u s issues).member? "nodes" = some (.object files) ∧
      files.length = s.size ∧ files.Perm (shownFiles u s)
  /-- The entry of a report is one of its files, if it is a key of the graph. -/
  listed : s.entry ∈ s.nodes.keys → ∀ issues,
    ∃ files, (scanJson u s issues).member? "nodes" = some (.object files) ∧
      ∃ name ∈ files.map Prod.fst, (scanJson u s issues).member? "entry" = some (.string name)
  /-- What is shown of an entry that is a file of the graph leads to it, however it is written. -/
  entry : s.contains s.entry = true → s.Legible u s.entry →
    s.lookup? (.ofText (u.spelled (shown u s s.entry))) = s.nodes.find? s.entry
  /-- What is shown of a dependent that is a file of the graph leads to the key of that file. -/
  dependents : ∀ k node, (k, node) ∈ s.nodes.entries →
    List.Forall₂ (fun d name ↦ ∀ l node', (l, node') ∈ s.nodes.entries → d.same l = true →
      s.Legible u l → s.lookup? (.ofText (u.spelled name)) = some (l, node'))
      node.dependents (shownDependents u s node)

/-- Whatever the root of a snapshot is and wherever its files lie, what is shown of it leads back
to it. -/
theorem retraces (u : Path.Units) (h : s.Rooted) : Retraces u s where
  legible k hk := legible_of_legible h.root (h.keys k hk).isAbsolute
  lookup_shown k node hk hlegible := lookup?_shown h hk hlegible rfl
  lookup_clean p := (lookup?_clean h.root p).symm
  shown_inj k hk l hl := shown_inj h hk hl
  report hlegible issues := by
    have hperm := Entries.perm_foldl_insert compare (nodup_shownFiles h hlegible)
    have hlength : (shownFiles u s).length = s.size := by rw [shownFiles, List.length_map]; rfl
    exact ⟨_, rfl, hperm.length_eq.trans hlength, hperm⟩
  listed hentry issues := by
    refine ⟨_, rfl, shown u s s.entry, Entries.mem_keys_foldl_insert.2 (.inl ?_), rfl⟩
    have hkeys := map_fst_shownFiles u s
    rw [shownFiles] at hkeys
    rw [hkeys]
    exact List.mem_map_of_mem hentry
  entry hentry hlegible := by
    obtain ⟨⟨k, node⟩, hk, hcompare⟩ := SortedMap.contains_iff.1 hentry
    have hparts := Path.compare_eq_iff.1 hcompare
    have habsolute := (h.keys k (mem_keys_of_mem_entries hk)).isAbsolute
    have hlegible' : s.Legible u k :=
      hlegible.congr h.root (Path.isAbsolute_congr hparts.symm habsolute) hparts.symm
    rw [lookup?_shown h hk hlegible' hparts]
    exact (SortedMap.find?_eq_some_iff.2 ⟨hk, hcompare⟩).symm
  dependents k node _ := by
    rw [shownDependents, List.forall₂_map_right_iff, List.forall₂_same]
    exact fun d _ l node' hl hd hlegible ↦ lookup?_shown h hl hlegible (Path.same_iff.1 hd)

/-- A graph with its root among its files, with a file in a directory whose name the root only
starts, and with a name that takes more bytes than characters. -/
def Beside.snapshot : Snapshot where
  root := .ofText "/repo"
  entry := .ofText "/repo/src/main.js"
  nodes := .ofList
    [(.ofText "/repo", ⟨∅, []⟩), (.ofText "/repo-x/a.js", ⟨∅, [.ofText "/repo//src/./main.js"]⟩),
      (.ofText "/repo/src/main.js", ⟨∅, []⟩), (.ofText "/lib/\xc3\xa4.js", ⟨∅, [.ofText "/repo/"]⟩)]

theorem retraces_beside : Beside.snapshot.Rooted ∧
    (∀ k ∈ Beside.snapshot.nodes.keys, Path.Units.bytes.Legible k) ∧
    Retraces .bytes Beside.snapshot := by
  have hlegible : ∀ k ∈ Beside.snapshot.nodes.keys,
      Path.Units.bytes.spelled (Path.Units.bytes.shown k.text) = k.text := by decide +kernel
  have hrooted : Beside.snapshot.Rooted := by decide +kernel
  exact ⟨hrooted, fun k hk ↦ ⟨_, hlegible k hk⟩, retraces .bytes hrooted⟩

/-! ## What does not lead back -/

/-- A graph with an entry that is not written as its key is. -/
def Respelled.snapshot : Snapshot where
  root := .ofText "/r"
  entry := .ofText "/r/src//main.js"
  nodes := .ofList [(.ofText "/r/src/main.js", ⟨∅, []⟩)]

/-- A graph with two names that are no texts. -/
def Illegible.snapshot : Snapshot where
  root := .ofText "/r"
  entry := .ofText "/r/main.js"
  nodes := .ofList [(.ofText "/r/main.js", ⟨∅, []⟩),
    (.ofText "/r/\xfe.js", ⟨∅, [.ofText "/r/main.js"]⟩),
    (.ofText "/r/\xff.js", ⟨∅, [.ofText "/r/main.js"]⟩)]

/-- The entry of a report is none of its files, where it is not written as its key is.  Names that
are no texts are shown alike, so that the report lists one of them only, and what is shown of them
leads nowhere. -/
theorem not_retraced :
    (Respelled.snapshot.Rooted ∧ Respelled.snapshot.contains Respelled.snapshot.entry = true ∧
      (scanJson .characters Respelled.snapshot []).member? "entry" =
        some (.string "src//main.js") ∧
      ∃ files, (scanJson .characters Respelled.snapshot []).member? "nodes" =
        some (.object files) ∧ files.map Prod.fst = ["src/main.js"]) ∧
    (Illegible.snapshot.Rooted ∧
      (∃ k ∈ Illegible.snapshot.nodes.keys, ∃ l ∈ Illegible.snapshot.nodes.keys, k ≠ l ∧
        shown .bytes Illegible.snapshot k = shown .bytes Illegible.snapshot l ∧
        Illegible.snapshot.lookup?
          (.ofText (Path.Units.bytes.spelled (shown .bytes Illegible.snapshot k))) = none) ∧
      ∃ files, (scanJson .bytes Illegible.snapshot []).member? "nodes" =
        some (.object files) ∧ files.length < Illegible.snapshot.size) := by
  have hrespelled : Respelled.snapshot.Rooted ∧
      Respelled.snapshot.contains Respelled.snapshot.entry = true := by decide +kernel
  have hentry : shown .characters Respelled.snapshot Respelled.snapshot.entry = "src//main.js" := by
    decide +kernel
  have hillegible : Illegible.snapshot.Rooted := by decide +kernel
  have hkeys : .ofText "/r/\xfe.js" ∈ Illegible.snapshot.nodes.keys ∧
      .ofText "/r/\xff.js" ∈ Illegible.snapshot.nodes.keys := by decide +kernel
  have hne : Path.ofText "/r/\xfe.js" ≠ .ofText "/r/\xff.js" := by decide +kernel
  have halike : shown .bytes Illegible.snapshot (.ofText "/r/\xfe.js") =
      shown .bytes Illegible.snapshot (.ofText "/r/\xff.js") := by decide +kernel
  have hnowhere : Illegible.snapshot.lookup? (.ofText (Path.Units.bytes.spelled
      (shown .bytes Illegible.snapshot (.ofText "/r/\xfe.js")))) = none :=
    Option.isNone_iff_eq_none.1 (by decide +kernel)
  refine ⟨⟨hrespelled.1, hrespelled.2, congrArg (some ∘ Json.string) hentry, _, rfl, ?_⟩,
    hillegible, ⟨_, hkeys.1, _, hkeys.2, hne, halike, hnowhere⟩, _, rfl, ?_⟩
  -- the names of the files that are listed, and their number
  · decide +kernel
  · decide +kernel

end Report
end ImpactGraph
