import ImpactGraph.Proofs.Path.Clean
import ImpactGraph.Proofs.Resolve

/-!
# The first candidate that is a file

`Candidate` says which path is tried in which place: the path that the specifier stands for, then
that path with each extension, then an index file below it with each extension.  `Resolves` says
without any search what a specifier resolves to, and what the file tree is asked for it: a package
that is listed is left alone, and any other specifier is the first of its candidates that is a
regular file.  `firstMatch` says that resolving does exactly that, and what follows from
it for longer specifiers, for failures, and for other importing files of the same directory.

Packages are told by the segments of a specifier (`segmentsOf`), and all that has to be known of
these is what another slash does to them (`segmentsOf_append`, `segmentsOf_eq`).
-/

set_option autoImplicit false

namespace ImpactGraph

/-! ## Segments -/

/-- The segments of a specifier, which slashes divide. -/
def segmentsOf (specifier : String) : List String :=
  (specifier.toList.splitOn '/').map String.ofList

theorem segmentsOf_append (s t : String) :
    segmentsOf (s ++ "/" ++ t) = segmentsOf s ++ segmentsOf t := by
  have hlist : (s ++ "/" ++ t).toList = s.toList ++ '/' :: t.toList := by simp
  rw [segmentsOf, hlist, List.splitOn_append_cons_self, List.map_append]
  rfl

theorem segmentsOf_ne_nil (s : String) : segmentsOf s ≠ [] := by
  simp [segmentsOf, List.splitOn_ne_nil]

theorem splitOn_eq_takeWhile (cs : List Char) :
    cs.splitOn '/' = cs.takeWhile (· != '/') ::
      if '/' ∈ cs then (cs.drop ((cs.takeWhile (· != '/')).length + 1)).splitOn '/' else [] := by
  induction cs with
  | nil => simp
  | cons c cs ih =>
    rw [List.splitOn_cons_eq_if_modifyHead]
    by_cases hc : c = '/'
    · simp [hc]
    · have hne : '/' ≠ c := fun h ↦ hc h.symm
      rw [if_neg (by simpa using hc), ih]
      simp [hc, hne]

/-- The first segment stands before the first slash, and the others are those of what follows it. -/
theorem segmentsOf_eq (s : String) :
    segmentsOf s =
      headSegment s :: if '/' ∈ s.toList then segmentsOf (splitHead s).2 else [] := by
  rw [segmentsOf, splitOn_eq_takeWhile, List.map_cons, headSegment, splitHead]
  split
  · rw [segmentsOf, String.toList_ofList]
  · rfl

theorem head?_segmentsOf (s : String) : (segmentsOf s).head? = some (headSegment s) := by
  rw [segmentsOf_eq, List.head?_cons]

/-! ## Heads -/

variable {head rest : String}

theorem bne_separator (hhead : '/' ∉ head.toList) : ∀ c ∈ head.toList, (c != '/') = true := by
  intro c hc
  rw [bne_iff_ne]
  rintro rfl
  exact hhead hc

theorem splitHead_append (hhead : '/' ∉ head.toList) :
    splitHead (head ++ "/" ++ rest) = (head, rest) := by
  have htext : (head ++ "/" ++ rest).toList = head.toList ++ '/' :: rest.toList := by simp
  have htake : (head ++ "/" ++ rest).toList.takeWhile (· != '/') = head.toList := by
    rw [htext, List.takeWhile_append_of_pos (bne_separator hhead),
      List.takeWhile_cons_of_neg (by simp), List.append_nil]
  simp only [splitHead, htake, String.ofList_toList, Prod.mk.injEq, true_and]
  rw [htext, List.drop_append]
  simp

theorem splitHead_of_not_mem (hhead : '/' ∉ head.toList) : splitHead head = (head, "") := by
  have htake : head.toList.takeWhile (· != '/') = head.toList := by
    rw [← List.append_nil head.toList, List.takeWhile_append_of_pos (bne_separator hhead),
      List.takeWhile_nil]
  simp only [splitHead, htake, String.ofList_toList, Prod.mk.injEq, true_and]
  simp

/-- A specifier with a slash is its head and what follows the first slash. -/
theorem exists_eq_append {specifier : String} (h : '/' ∈ specifier.toList) :
    ∃ head rest : String, '/' ∉ head.toList ∧ specifier = head ++ "/" ++ rest := by
  obtain ⟨front, back, hlist, hfront⟩ := List.eq_append_cons_of_mem h
  refine ⟨String.ofList front, String.ofList back, by rwa [String.toList_ofList], ?_⟩
  rw [← String.toList_inj, hlist]
  simp

/-! ## Regular files -/

/-- A path leads to a regular file, and that can be told. -/
def FileTree.HasFile (files : FileTree) (p : Path) : Prop :=
  ∃ found, files (.metadata p) = .ok found ∧ found.isFile = true

theorem FileTree.isFile_iff {files : FileTree} {p : Path} :
    FileTree.isFile files p = true ↔ FileTree.HasFile files p := by
  rw [FileTree.isFile, Files.isFile, Dialogue.run_bind, Files.run_metadata, HasFile]
  cases files (.metadata p) with
  | error fault => simp
  | ok found => exact ⟨fun h ↦ ⟨found, rfl, h⟩, fun ⟨_, hfound, h⟩ ↦ Except.ok.inj hfound ▸ h⟩

theorem FileTree.isFile_eq_false_iff {files : FileTree} {p : Path} :
    FileTree.isFile files p = false ↔ ¬FileTree.HasFile files p := by
  rw [← FileTree.isFile_iff, Bool.not_eq_true]

namespace Probe

variable {files : FileTree} {before after : List Path} {c : Path}

theorem asked_isFile (p : Path) : (Files.isFile p).asked files = [.metadata p] := by
  rw [Files.isFile, Dialogue.asked_bind, Files.run_metadata]
  cases files (.metadata p) <;> rfl

theorem asked_firstFile_append (h : ∀ p ∈ before, FileTree.isFile files p = false) :
    (firstFile (before ++ after)).asked files =
      before.map .metadata ++ (firstFile after).asked files := by
  induction before with
  | nil => rfl
  | cons p before ih =>
    obtain ⟨hp, hbefore⟩ := List.forall_mem_cons.1 h
    have hrun : (Files.isFile p).run files = false := hp
    rw [List.cons_append, firstFile, Dialogue.asked_bind, asked_isFile, hrun]
    exact congrArg (.metadata p :: ·) (ih hbefore)

/-- The paths up to the first regular file are looked at, and no others. -/
theorem asked_firstFile_of_isFile (h : ∀ p ∈ before, FileTree.isFile files p = false)
    (hc : FileTree.isFile files c = true) :
    (firstFile (before ++ c :: after)).asked files = (before ++ [c]).map .metadata := by
  have hrun : (Files.isFile c).run files = true := hc
  have hlast : (firstFile (c :: after)).asked files = [.metadata c] := by
    rw [firstFile, Dialogue.asked_bind, asked_isFile, hrun]
    rfl
  rw [asked_firstFile_append h, hlast, List.map_append, List.map_singleton]

theorem asked_firstFile_of_forall (h : ∀ p ∈ before, FileTree.isFile files p = false) :
    (firstFile before).asked files = before.map .metadata := by
  have hall : (firstFile (before ++ [])).asked files = before.map .metadata ++ [] :=
    asked_firstFile_append h
  rwa [List.append_nil, List.append_nil] at hall

/-! ## Candidates -/

/-- The candidates for a path by their places: the path itself, the path with a dot and each of the
extensions, and the index file with each of the extensions in the directory of that name. -/
inductive Candidate (base : Path) (extensions : List String) : Nat → Path → Prop
  | base : Candidate base extensions 0 base
  | extended {i : Nat} {extension : String} : extensions[i]? = some extension →
      Candidate base extensions (1 + i) (.ofText (base.text ++ "." ++ extension))
  | index {i : Nat} {extension : String} : extensions[i]? = some extension → base.text ≠ "/" →
      Candidate base extensions (1 + extensions.length + i)
        (.ofText (base.text ++ "/index." ++ extension))
  | rootIndex {i : Nat} {extension : String} : extensions[i]? = some extension → base.text = "/" →
      Candidate base extensions (1 + extensions.length + i) (.ofText ("/index." ++ extension))

/-- A list has every candidate for a path in its place, and nothing else. -/
def ListsCandidates (base : Path) (extensions : List String) (cs : List Path) : Prop :=
  ∀ i c, cs[i]? = some c ↔ Candidate base extensions i c

variable {base : Path} {extensions : List String} {cs : List Path} {i : Nat}

theorem length_candidates (base : Path) (extensions : List String) :
    (candidates base extensions).length = 1 + 2 * extensions.length := by
  simp only [candidates, List.length_append, List.length_cons, List.length_map]
  omega

theorem getElem?_candidates_extended (hi : i < extensions.length) :
    (candidates base extensions)[1 + i]? =
      extensions[i]?.map fun extension ↦ .ofText (base.text ++ "." ++ extension) := by
  rw [candidates, List.cons_append, Nat.add_comm, List.getElem?_cons_succ,
    List.getElem?_append_left (by simpa using hi), List.getElem?_map]

theorem getElem?_candidates_index : (candidates base extensions)[1 + extensions.length + i]? =
    extensions[i]?.map fun extension ↦ base.join (.ofText ("index." ++ extension)) := by
  have hplace : 1 + extensions.length + i = extensions.length + i + 1 := by omega
  rw [candidates, List.cons_append, hplace, List.getElem?_cons_succ,
    List.getElem?_append_right (by simp), List.length_map, Nat.add_sub_cancel_left,
    List.getElem?_map]

/-- The index file below a clean path. -/
theorem join_index (p : Path) (extension : String) :
    p.clean.join (.ofText ("index." ++ extension)) =
      if p.clean.text = "/" then .ofText ("/index." ++ extension)
      else .ofText (p.clean.text ++ "/index." ++ extension) := by
  have hrelative : (Path.ofText ("index." ++ extension)).isAbsolute = false := by
    simp [Path.isAbsolute]
  have hname : "/" ++ ("index." ++ extension) = "/index." ++ extension := by
    rw [← String.append_assoc]
    rfl
  rw [Path.join_clean hrelative, Path.text_ofText, String.append_assoc, hname,
    ← String.append_assoc]

/-- What is tried for a clean path is its candidates. -/
theorem listsCandidates (p : Path) (extensions : List String) :
    ListsCandidates p.clean extensions (candidates p.clean extensions) := by
  intro i c
  constructor
  · intro h
    have hi : i < 1 + 2 * extensions.length := by
      rw [← length_candidates p.clean extensions]
      exact (List.getElem?_eq_some_iff.1 h).1
    -- the place of the path itself, of an extension, or of an index file
    rcases Nat.eq_zero_or_pos i with rfl | hpos
    · cases h
      exact .base
    · obtain ⟨j, rfl⟩ := Nat.exists_eq_add_of_le hpos
      by_cases hj : j < extensions.length
      · rw [getElem?_candidates_extended hj, Option.map_eq_some_iff] at h
        obtain ⟨extension, hextension, rfl⟩ := h
        exact .extended hextension
      · obtain ⟨k, rfl⟩ := Nat.exists_eq_add_of_le (Nat.not_lt.1 hj)
        rw [← Nat.add_assoc] at h ⊢
        rw [getElem?_candidates_index, Option.map_eq_some_iff] at h
        obtain ⟨extension, hextension, rfl⟩ := h
        rw [join_index]
        split
        · next hroot => exact .rootIndex hextension hroot
        · next hroot => exact .index hextension hroot
  · intro h
    cases h with
    | base => rfl
    | extended hi =>
      rw [getElem?_candidates_extended (List.getElem?_eq_some_iff.1 hi).1, hi, Option.map_some]
    | index hi hroot =>
      rw [getElem?_candidates_index, hi, Option.map_some, join_index, if_neg hroot]
    | rootIndex hi hroot =>
      rw [getElem?_candidates_index, hi, Option.map_some, join_index, if_pos hroot]

/-- A clean path has one list of candidates. -/
theorem listsCandidates_iff {p : Path} :
    ListsCandidates p.clean extensions cs ↔ cs = candidates p.clean extensions := by
  constructor
  · intro h
    refine List.ext_getElem? fun i ↦ Option.ext fun c ↦ ?_
    rw [h i c, listsCandidates p extensions i c]
  · rintro rfl
    exact listsCandidates p extensions

theorem mem_candidates_iff {p : Path} :
    c ∈ candidates p.clean extensions ↔ ∃ i, Candidate p.clean extensions i c := by
  rw [List.mem_iff_getElem?]
  exact exists_congr fun i ↦ listsCandidates p extensions i c

example : candidates (.ofText "/r/src/a.service") ["js", "vue"] =
    [.ofText "/r/src/a.service", .ofText "/r/src/a.service.js", .ofText "/r/src/a.service.vue",
      .ofText "/r/src/a.service/index.js", .ofText "/r/src/a.service/index.vue"] := by decide

end Probe

namespace Resolver

variable {r : Resolver} {files : FileTree} {importer importer' : Path} {specifier : String}

/-! ## External packages -/

/-- A specifier names an external package: its first segment is listed, or, where it starts with
`@`, its first two segments are. -/
def NamesExternal (r : Resolver) (specifier : String) : Prop :=
  ∃ n, (n = 1 ∨ n = 2 ∧ ['@'] <+: specifier.toList) ∧
    String.intercalate "/" ((segmentsOf specifier).take n) ∈ r.external

theorem startsWith_headSegment_iff :
    (headSegment specifier).startsWith "@" = true ↔ ['@'] <+: specifier.toList := by
  have hat : "@".toList = ['@'] := rfl
  rw [String.startsWith_string_iff, hat, headSegment, splitHead, String.toList_ofList]
  cases specifier.toList with
  | nil => simp
  | cons c cs =>
    by_cases hc : c = '/'
    · simp [hc]
    · simp [hc]

/-- The names under which a specifier may be listed are read off its segments. -/
theorem mem_packageNames_iff {name : String} :
    name ∈ packageNames specifier ↔ ∃ n, (n = 1 ∨ n = 2 ∧ ['@'] <+: specifier.toList) ∧
      name = String.intercalate "/" ((segmentsOf specifier).take n) := by
  have hone : String.intercalate "/" ((segmentsOf specifier).take 1) = headSegment specifier := by
    rw [segmentsOf_eq]
    simp
  have htwo : String.intercalate "/" ((segmentsOf specifier).take 2) =
      if '/' ∈ specifier.toList then
        headSegment specifier ++ "/" ++ headSegment (splitHead specifier).2
      else headSegment specifier := by
    rw [segmentsOf_eq]
    split
    · rw [segmentsOf_eq]
      simp
    · simp
  have hnames : packageNames specifier =
      if ['@'] <+: specifier.toList ∧ '/' ∈ specifier.toList then
        [headSegment specifier, headSegment specifier ++ "/" ++ headSegment (splitHead specifier).2]
      else [headSegment specifier] := by
    simp only [packageNames, ← startsWith_headSegment_iff, headSegment, Bool.and_eq_true,
      List.contains_iff_mem]
  rw [hnames]
  constructor
  · intro hname
    split at hname
    · next hscoped =>
      rcases List.mem_pair.1 hname with rfl | rfl
      · exact ⟨1, .inl rfl, hone.symm⟩
      · exact ⟨2, .inr ⟨rfl, hscoped.1⟩, by rw [htwo, if_pos hscoped.2]⟩
    · exact ⟨1, .inl rfl, by rw [hone, List.mem_singleton.1 hname]⟩
  · rintro ⟨n, rfl | ⟨rfl, hat⟩, rfl⟩
    · rw [hone]
      split <;> simp
    · rw [htwo]
      by_cases hslash : '/' ∈ specifier.toList
      · simp [hat, hslash]
      · simp [hslash]

theorem isExternal_iff : r.isExternal specifier = true ↔ r.NamesExternal specifier := by
  rw [isExternal, List.any_eq_true, NamesExternal]
  simp only [mem_packageNames_iff, List.contains_iff_mem]
  constructor
  · rintro ⟨_, ⟨n, hn, rfl⟩, hmem⟩
    exact ⟨n, hn, hmem⟩
  · rintro ⟨n, hn, hmem⟩
    exact ⟨_, ⟨n, hn, rfl⟩, hmem⟩

/-- A package stays external however deep into it a specifier leads. -/
theorem NamesExternal.append (h : r.NamesExternal specifier) (rest : String) :
    r.NamesExternal (specifier ++ "/" ++ rest) := by
  obtain ⟨n, hn, hmem⟩ := h
  rw [NamesExternal, segmentsOf_append]
  by_cases hlength : n ≤ (segmentsOf specifier).length
  · have hat : specifier.toList <+: (specifier ++ "/" ++ rest).toList := by
      rw [String.toList_append, String.toList_append, List.append_assoc]
      exact List.prefix_append _ _
    refine ⟨n, hn.imp_right fun ⟨htwo, h⟩ ↦ ⟨htwo, h.trans hat⟩, ?_⟩
    rwa [List.take_append_of_le_length hlength]
  · -- The only segment is listed, and it is the first one of the longer specifier.
    have hpos : 0 < (segmentsOf specifier).length :=
      List.length_pos_iff.2 (segmentsOf_ne_nil specifier)
    have hone : (segmentsOf specifier).length = 1 := by omega
    refine ⟨1, .inl rfl, ?_⟩
    rw [List.take_append_of_le_length (by omega), List.take_of_length_le (by omega)]
    rwa [List.take_of_length_le (by omega)] at hmem

/-! ## The path of a specifier -/

/-- The path that candidates are formed from: what an alias in front stands for, or else the
specifier taken from the directory of the importing file; a file without a directory stands for
it. -/
inductive IsBase (r : Resolver) (importer : Path) (specifier : String) : Path → Prop
  | directory {dir : Path} : '/' ∉ specifier.toList → r.aliases.get? specifier = some dir →
      IsBase r importer specifier dir.clean
  | aliased {head rest : String} {dir : Path} : '/' ∉ head.toList →
      specifier = head ++ "/" ++ rest → r.aliases.get? head = some dir →
      IsBase r importer specifier (if rest = "" then dir else dir.join (.ofText rest)).clean
  | relative {head : String} : (segmentsOf specifier).head? = some head →
      r.aliases.get? head = none →
      IsBase r importer specifier
        ((importer.parent?.getD importer).join (.ofText specifier)).clean

theorem base_of_get? {head rest : String} {dir : Path} (hsplit : splitHead specifier = (head, rest))
    (hdir : r.aliases.get? head = some dir) :
    r.base importer specifier = (if rest = "" then dir else dir.join (.ofText rest)).clean := by
  have hexpand : r.aliases.expand? specifier =
      some (if rest = "" then dir else dir.join (.ofText rest)) := by
    simp only [AliasTable.expand?, hsplit, hdir, Option.map_some, String.isEmpty_iff]
  rw [base, hexpand]

theorem isBase_iff {base : Path} :
    r.IsBase importer specifier base ↔ base = r.base importer specifier := by
  have hexpand (h : r.aliases.get? (headSegment specifier) = none) :
      r.aliases.expand? specifier = none := by
    rw [AliasTable.expand?]
    exact congrArg (Option.map _) h
  constructor
  · rintro (⟨hslash, hdir⟩ | ⟨hhead, rfl, hdir⟩ | ⟨hhead, hnone⟩)
    · rw [base_of_get? (splitHead_of_not_mem hslash) hdir, if_pos rfl]
    · rw [base_of_get? (splitHead_append hhead) hdir]
    · cases (head?_segmentsOf specifier).symm.trans hhead
      rw [Resolver.base, hexpand hnone]
  · rintro rfl
    cases hdir : r.aliases.get? (headSegment specifier) with
    | none =>
      rw [Resolver.base, hexpand hdir]
      exact .relative (head?_segmentsOf specifier) hdir
    | some dir =>
      by_cases hslash : '/' ∈ specifier.toList
      · obtain ⟨head, rest, hhead, rfl⟩ := exists_eq_append hslash
        rw [headSegment, splitHead_append hhead] at hdir
        rw [base_of_get? (splitHead_append hhead) hdir]
        exact .aliased hhead rfl hdir
      · rw [headSegment, splitHead_of_not_mem hslash] at hdir
        rw [base_of_get? (splitHead_of_not_mem hslash) hdir, if_pos rfl]
        exact .directory hslash hdir

theorem IsBase.exists_clean {base : Path} (h : r.IsBase importer specifier base) :
    ∃ p : Path, base = p.clean := by
  cases h with
  | directory | aliased | relative => exact ⟨_, rfl⟩

/-- The paths that are tried are the candidates, in order. -/
theorem IsBase.listsCandidates_iff {base : Path} {cs : List Path}
    (h : r.IsBase importer specifier base) :
    Probe.ListsCandidates base r.extensions cs ↔ cs = r.probes importer specifier := by
  rw [probes, ← isBase_iff.1 h]
  obtain ⟨p, rfl⟩ := h.exists_clean
  exact Probe.listsCandidates_iff

theorem IsBase.mem_probes_iff {base c : Path} (h : r.IsBase importer specifier base) :
    c ∈ r.probes importer specifier ↔ ∃ i, Probe.Candidate base r.extensions i c := by
  rw [probes, ← isBase_iff.1 h]
  obtain ⟨p, rfl⟩ := h.exists_clean
  exact Probe.mem_candidates_iff

/-! ## What is resolved, and what is asked for it -/

/-- What a specifier resolves to over a file tree, with the questions that are asked of it. -/
inductive Resolves (r : Resolver) (files : FileTree) (importer : Path) (specifier : String) :
    Resolution → List FileQuestion → Prop
  | external : r.NamesExternal specifier → Resolves r files importer specifier .external []
  | file {base c : Path} {before after : List Path} : ¬r.NamesExternal specifier →
      r.IsBase importer specifier base →
      Probe.ListsCandidates base r.extensions (before ++ c :: after) →
      (∀ p ∈ before, ¬FileTree.HasFile files p) → FileTree.HasFile files c →
      Resolves r files importer specifier (.file (canonicalIn files c))
        ((before ++ [c]).map .metadata ++ [.canonical c])
  | failed {base : Path} {cs : List Path} : ¬r.NamesExternal specifier →
      r.IsBase importer specifier base → Probe.ListsCandidates base r.extensions cs →
      (∀ p ∈ cs, ¬FileTree.HasFile files p) →
      Resolves r files importer specifier (.failed ⟨importer, specifier, cs⟩) (cs.map .metadata)

theorem asked_resolve (h : r.isExternal specifier = false) :
    (r.resolve importer specifier).asked files =
      (Probe.firstFile (r.probes importer specifier)).asked files ++
        ((r.probes importer specifier).find? (FileTree.isFile files)).toList.map .canonical := by
  rw [resolve, if_neg (by simp [h]), Dialogue.asked_bind, Probe.run_firstFile]
  cases (r.probes importer specifier).find? (FileTree.isFile files) with
  | none => rfl
  | some c =>
    simp only [Dialogue.asked_bind, Files.run_canonical]
    cases files (.canonical c) <;> rfl

theorem run_asked_of_external (h : r.isExternal specifier = true) :
    (r.resolve importer specifier).run files = .external ∧
      (r.resolve importer specifier).asked files = [] := by
  rw [resolve, if_pos h]
  exact ⟨rfl, rfl⟩

theorem run_asked_of_isFile {c : Path} {before after : List Path}
    (h : r.isExternal specifier = false)
    (hprobes : r.probes importer specifier = before ++ c :: after)
    (hbefore : ∀ p ∈ before, FileTree.isFile files p = false)
    (hc : FileTree.isFile files c = true) :
    (r.resolve importer specifier).run files = .file (canonicalIn files c) ∧
      (r.resolve importer specifier).asked files =
        (before ++ [c]).map .metadata ++ [.canonical c] := by
  have hfind : (r.probes importer specifier).find? (FileTree.isFile files) = some c :=
    List.find?_eq_some_iff_append.2
      ⟨hc, before, after, hprobes, fun p hp ↦ by simpa using hbefore p hp⟩
  constructor
  · rw [run_resolve, if_neg (by simp [h]), hfind]
  · rw [asked_resolve h, hfind, hprobes, Probe.asked_firstFile_of_isFile hbefore hc]
    rfl

theorem run_asked_of_forall (h : r.isExternal specifier = false)
    (hall : ∀ p ∈ r.probes importer specifier, FileTree.isFile files p = false) :
    (r.resolve importer specifier).run files =
        .failed ⟨importer, specifier, r.probes importer specifier⟩ ∧
      (r.resolve importer specifier).asked files =
        (r.probes importer specifier).map .metadata := by
  have hfind : (r.probes importer specifier).find? (FileTree.isFile files) = none :=
    List.find?_eq_none.2 fun p hp ↦ by simp [hall p hp]
  constructor
  · rw [run_resolve, if_neg (by simp [h]), hfind]
  · rw [asked_resolve h, hfind, Probe.asked_firstFile_of_forall hall]
    exact List.append_nil _

theorem isExternal_eq_false_iff :
    r.isExternal specifier = false ↔ ¬r.NamesExternal specifier := by
  rw [← isExternal_iff, Bool.not_eq_true]

theorem resolves_iff {result : Resolution} {asked : List FileQuestion} :
    r.Resolves files importer specifier result asked ↔
      (r.resolve importer specifier).run files = result ∧
        (r.resolve importer specifier).asked files = asked := by
  constructor
  · intro h
    cases h with
    | external hext => exact run_asked_of_external (isExternal_iff.2 hext)
    | file hext hbase hcandidates hbefore hc =>
      have hprobes := (hbase.listsCandidates_iff.1 hcandidates).symm
      exact run_asked_of_isFile (isExternal_eq_false_iff.2 hext) hprobes
        (fun p hp ↦ FileTree.isFile_eq_false_iff.2 (hbefore p hp)) (FileTree.isFile_iff.2 hc)
    | failed hext hbase hcandidates hall =>
      obtain rfl := hbase.listsCandidates_iff.1 hcandidates
      exact run_asked_of_forall (isExternal_eq_false_iff.2 hext)
        fun p hp ↦ FileTree.isFile_eq_false_iff.2 (hall p hp)
  · rintro ⟨rfl, rfl⟩
    cases hext : r.isExternal specifier with
    | true =>
      obtain ⟨hrun, hasked⟩ := run_asked_of_external hext
      rw [hrun, hasked]
      exact .external (isExternal_iff.1 hext)
    | false =>
      have hexternal := isExternal_eq_false_iff.1 hext
      have hbase : r.IsBase importer specifier (r.base importer specifier) := isBase_iff.2 rfl
      cases hfind : (r.probes importer specifier).find? (FileTree.isFile files) with
      | none =>
        have hall (p : Path) (hp : p ∈ r.probes importer specifier) :
            FileTree.isFile files p = false := by
          simpa using List.find?_eq_none.1 hfind p hp
        obtain ⟨hrun, hasked⟩ := run_asked_of_forall hext hall
        rw [hrun, hasked]
        exact .failed hexternal hbase (hbase.listsCandidates_iff.2 rfl)
          fun p hp ↦ FileTree.isFile_eq_false_iff.1 (hall p hp)
      | some c =>
        obtain ⟨hc, before, after, hprobes, hnone⟩ := List.find?_eq_some_iff_append.1 hfind
        have hbefore (p : Path) (hp : p ∈ before) : FileTree.isFile files p = false := by
          simpa using hnone p hp
        obtain ⟨hrun, hasked⟩ := run_asked_of_isFile hext hprobes hbefore hc
        rw [hrun, hasked]
        exact .file hexternal hbase (hbase.listsCandidates_iff.2 hprobes.symm)
          (fun p hp ↦ FileTree.isFile_eq_false_iff.1 (hbefore p hp)) (FileTree.isFile_iff.1 hc)

/-! ## What follows -/

theorem exists_run_resolve_eq_failed_iff :
    (∃ fault, (r.resolve importer specifier).run files = .failed fault) ↔
      ¬r.NamesExternal specifier ∧ ∀ base, r.IsBase importer specifier base →
        ∀ i c, Probe.Candidate base r.extensions i c → ¬FileTree.HasFile files c := by
  constructor
  · rintro ⟨fault, hfault⟩
    obtain ⟨⟨hext, hall⟩, -⟩ := run_resolve_eq_failed_iff.1 hfault
    refine ⟨isExternal_eq_false_iff.1 hext, fun base hbase i c hc ↦ ?_⟩
    exact FileTree.isFile_eq_false_iff.1 (hall c (hbase.mem_probes_iff.2 ⟨i, hc⟩))
  · rintro ⟨hext, hall⟩
    have hbase : r.IsBase importer specifier (r.base importer specifier) := isBase_iff.2 rfl
    have hnone (p : Path) (hp : p ∈ r.probes importer specifier) :
        FileTree.isFile files p = false := by
      obtain ⟨i, hi⟩ := hbase.mem_probes_iff.1 hp
      exact FileTree.isFile_eq_false_iff.2 (hall _ hbase i p hi)
    exact ⟨_, (run_asked_of_forall (isExternal_eq_false_iff.2 hext) hnone).1⟩

end Resolver

/-- The same resolution for another importing file, which is named where it fails. -/
def Resolution.blaming (importer : Path) : Resolution → Resolution
  | .failed fault => .failed { fault with importer }
  | resolution => resolution

namespace Resolver

variable {r : Resolver} {files : FileTree} {importer importer' : Path} {specifier : String}

/-- Importing files of one directory come to the same, by the same questions. -/
theorem resolve_of_directory
    (h : (importer.parent?.getD importer).parts = (importer'.parent?.getD importer').parts) :
    (r.resolve importer' specifier).run files =
        ((r.resolve importer specifier).run files).blaming importer' ∧
      (r.resolve importer' specifier).asked files = (r.resolve importer specifier).asked files := by
  have hprobes : r.probes importer' specifier = r.probes importer specifier :=
    (probes_eq_of_directory h).symm
  cases hext : r.isExternal specifier with
  | true =>
    obtain ⟨hrun, hasked⟩ := run_asked_of_external hext
    obtain ⟨hrun', hasked'⟩ := run_asked_of_external hext
    rw [hrun, hasked, hrun', hasked']
    exact ⟨rfl, rfl⟩
  | false =>
    constructor
    · rw [run_resolve, run_resolve, if_neg (by simp [hext]), if_neg (by simp [hext]), hprobes]
      cases (r.probes importer specifier).find? (FileTree.isFile files) <;> rfl
    · rw [asked_resolve hext, asked_resolve hext, hprobes]

/-- What a specifier resolves to is the first match among its candidates. -/
structure FirstMatch (r : Resolver) (files : FileTree) (importer : Path) (specifier : String) :
    Prop where
  /-- It resolves to what the rules say, and asks what they say. -/
  resolves : ∀ result asked, r.Resolves files importer specifier result asked ↔
    (r.resolve importer specifier).run files = result ∧
      (r.resolve importer specifier).asked files = asked
  /-- A package is left alone, with all that lies below it. -/
  deeper : r.NamesExternal specifier → ∀ rest,
    (r.resolve importer (specifier ++ "/" ++ rest)).run files = .external ∧
      (r.resolve importer (specifier ++ "/" ++ rest)).asked files = []
  /-- It fails where no candidate is a regular file, and only there. -/
  failed_iff : (∃ fault, (r.resolve importer specifier).run files = .failed fault) ↔
    ¬r.NamesExternal specifier ∧ ∀ base, r.IsBase importer specifier base →
      ∀ i c, Probe.Candidate base r.extensions i c → ¬FileTree.HasFile files c
  /-- A failure lists all candidates, each in its place. -/
  probes : ∀ fault, (r.resolve importer specifier).run files = .failed fault →
    (∀ base, r.IsBase importer specifier base →
      Probe.ListsCandidates base r.extensions fault.probes) ∧
        fault.probes.length = 1 + 2 * r.extensions.length
  /-- The importing file counts only by its directory, apart from being blamed. -/
  directory : ∀ importer' : Path,
    (importer.parent?.getD importer).parts = (importer'.parent?.getD importer').parts →
      (r.resolve importer' specifier).run files =
          ((r.resolve importer specifier).run files).blaming importer' ∧
        (r.resolve importer' specifier).asked files = (r.resolve importer specifier).asked files

/-- Every specifier of every file resolves to its first match. -/
theorem firstMatch (r : Resolver) (files : FileTree) (importer : Path) (specifier : String) :
    r.FirstMatch files importer specifier where
  resolves _ _ := resolves_iff
  deeper h rest := run_asked_of_external (isExternal_iff.2 (h.append rest))
  failed_iff := exists_run_resolve_eq_failed_iff
  probes fault hfault := by
    obtain ⟨-, rfl⟩ := run_resolve_eq_failed_iff.1 hfault
    exact ⟨fun base hbase ↦ hbase.listsCandidates_iff.2 rfl, Probe.length_candidates _ _⟩
  directory _ h := resolve_of_directory h

end Resolver
end ImpactGraph
