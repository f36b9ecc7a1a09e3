import ImpactGraph.Proofs.Path.Clean
import ImpactGraph.Proofs.Resolve.FirstMatch
import ImpactGraph.Proofs.SortedMap

/-!
# What an alias stands for

A specifier whose head is an alias is meant to be taken as it stands, with the directory of the
alias in the place of the head.  `substitutes_of_alias` says for which specifiers this is so: all in
which no second separator follows the head.  Of those, the ones without `..` stay in the directory.

What follows a doubled separator is an absolute path for `Path.join`, which then forgets the
directory; `base_ne_of_doubled_separator` is such a specifier.
-/

set_option autoImplicit false

namespace ImpactGraph

open StoredTree

variable {root dir importer : Path} {aliases : List (String × Path)} {head rest : String}

/-! ## Directories -/

namespace AliasTable

/-- The directories of a table are clean, and absolute if the root is. -/
theorem exists_of_get?_ofConfig (hroot : root.isAbsolute = true)
    (h : (ofConfig root aliases).get? head = some dir) :
    ∃ names : List String, (∀ name ∈ names, IsName name) ∧ dir = pathOf names := by
  rw [ofConfig, SortedMap.get?_ofList] at h
  obtain ⟨name, hmem, -⟩ := Entries.exists_mem_of_get? h
  obtain ⟨⟨name, written⟩, -, heq⟩ := List.mem_map.1 (List.mem_reverse.1 hmem)
  obtain ⟨rfl, rfl⟩ := Prod.mk.inj heq
  split
  · next habsolute => exact Path.exists_clean_eq_pathOf habsolute
  · next hrelative =>
    refine Path.exists_clean_eq_pathOf ?_
    rw [Path.isAbsolute_join (by simpa using hrelative), hroot]

end AliasTable

/-! ## Joining is putting together -/

namespace Path

variable {p : Path}

/-- The parts of a path that is written out after a directory. -/
theorem parts_ofText_append (hp : p.parts ≠ []) (text : String) :
    (ofText (p.text ++ "/" ++ text)).parts = p.parts ++ (ofText text).added := by
  have hsegments : p.text.toList.splitOn '/' ≠ [[]] := fun h ↦ hp <| by
    rw [parts_eq_ofSegments, h]
    rfl
  have htext : (p.text ++ "/" ++ text).toList = p.text.toList ++ '/' :: text.toList := by simp
  rw [parts_eq_ofSegments, text_ofText, htext, List.splitOn_append_cons_self,
    Part.ofSegments_append (List.splitOn_ne_nil _ _) hsegments, ← parts_eq_ofSegments]
  rfl

/-- A relative path that is taken from a directory is written out after it. -/
theorem clean_join_ofText (hp : p.parts ≠ []) {text : String}
    (htext : (ofText text).isAbsolute = false) :
    (p.join (.ofText text)).clean = (ofText (p.text ++ "/" ++ text)).clean :=
  clean_congr (by rw [parts_join_of_relative htext hp, parts_ofText_append hp])

theorem added_of_not_mem_segmentsOf (h : ".." ∉ segmentsOf rest) :
    ∃ names : List String, (∀ name ∈ names, IsName name) ∧
      (ofText rest).added = names.map .name := by
  have hname : ∀ part ∈ (ofText rest).added, ∃ text, IsName text ∧ .name text = part := by
    intro part hpart
    have hplain := plain_of_mem_added hpart
    cases part with
    | name text => exact ⟨text, hplain, rfl⟩
    | root | current => cases hplain
    | parent =>
      obtain ⟨segment, hmem, hsegment⟩ := List.mem_filterMap.1 hpart
      rw [Part.ofSegment.eq_def] at hsegment
      split at hsegment <;> cases hsegment
      exact absurd (List.mem_map_of_mem hmem) h
  choose! text htext using hname
  refine ⟨(ofText rest).added.map text, ?_, ?_⟩
  · exact List.forall_mem_map.2 fun part hpart ↦ (htext part hpart).1
  · rw [List.map_map]
    exact (List.map_id _).symm.trans
      (List.map_congr_left fun part hpart ↦ (htext part hpart).2.symm)

end Path

/-! ## Substitution -/

namespace Resolver

variable {r : Resolver}

/-- An alias in front of a specifier: what the specifier is probed as. -/
structure Substitutes (r : Resolver) (importer : Path) (head rest : String) (dir : Path) :
    Prop where
  /-- The alias alone is its directory. -/
  alone : r.base importer head = dir
  /-- The directory takes the place of the head, if what follows is relative. -/
  substituted : (Path.ofText rest).isAbsolute = false →
    r.base importer (head ++ "/" ++ rest) = (Path.ofText (dir.text ++ "/" ++ rest)).clean
  /-- What is absolute stands alone, and the directory is forgotten. -/
  forgotten : (Path.ofText rest).isAbsolute = true →
    r.base importer (head ++ "/" ++ rest) = (Path.ofText rest).clean
  /-- Without a `..`, what is relative is the directory or lies below it. -/
  within : (Path.ofText rest).isAbsolute = false → ".." ∉ segmentsOf rest →
    dir.parts <+: (r.base importer (head ++ "/" ++ rest)).parts

theorem substitutes_of_get? {names : List String} (hnames : ∀ name ∈ names, IsName name)
    (hhead : '/' ∉ head.toList) (hdir : r.aliases.get? head = some (pathOf names)) :
    Substitutes r importer head rest (pathOf names) := by
  have hne : (pathOf names).parts ≠ [] := by simp [parts_pathOf hnames]
  have halone : r.base importer head = (pathOf names).clean :=
    base_of_get? (splitHead_of_not_mem hhead) hdir
  have hbase : r.base importer (head ++ "/" ++ rest) =
      (if rest = "" then pathOf names else (pathOf names).join (.ofText rest)).clean :=
    base_of_get? (splitHead_append hhead) hdir
  have hsubstituted (hrest : (Path.ofText rest).isAbsolute = false) :
      r.base importer (head ++ "/" ++ rest) =
        (Path.ofText ((pathOf names).text ++ "/" ++ rest)).clean := by
    rw [hbase]
    split
    · next hempty =>
      subst hempty
      exact Path.clean_congr (by rw [Path.parts_ofText_append hne]; exact (List.append_nil _).symm)
    · exact Path.clean_join_ofText hne hrest
  refine ⟨halone.trans (Path.clean_pathOf hnames), hsubstituted, fun hrest ↦ ?_,
    fun hrest hparent ↦ ?_⟩
  · have hne' : rest ≠ "" := by
      rintro rfl
      cases hrest
    rw [hbase, if_neg hne', Path.join, if_pos hrest]
  · obtain ⟨names', hnames', hadded⟩ := Path.added_of_not_mem_segmentsOf hparent
    have hall : ∀ name ∈ names ++ names', IsName name :=
      List.forall_mem_append.2 ⟨hnames, hnames'⟩
    have hparts : Path.cleanParts (Path.ofText ((pathOf names).text ++ "/" ++ rest)).parts =
        .root :: (names ++ names').map .name := by
      rw [Path.parts_ofText_append hne, hadded, parts_pathOf hnames, List.cons_append,
        ← List.map_append, Path.cleanParts_root_names]
    rw [hsubstituted hrest, clean_eq_pathOf hparts, parts_pathOf hall, parts_pathOf hnames,
      List.map_append, ← List.cons_append]
    exact List.prefix_append _ _

/-- A specifier with an alias of an absolute root in front is its substitution, unless a second
separator follows the alias. -/
theorem substitutes_of_alias {external extensions : List String} (hroot : root.isAbsolute = true)
    (hhead : '/' ∉ head.toList) (hdir : (AliasTable.ofConfig root aliases).get? head = some dir) :
    Substitutes ⟨.ofConfig root aliases, external, extensions⟩ importer head rest dir := by
  obtain ⟨names, hnames, rfl⟩ := AliasTable.exists_of_get?_ofConfig hroot hdir
  exact substitutes_of_get? hnames hhead hdir

/-- A specifier below an alias whose directory is configured with dots. -/
theorem substitutes_dotted :
    (Path.ofText "/r").isAbsolute = true ∧ '/' ∉ "@".toList ∧
      (AliasTable.ofConfig (.ofText "/r") [("@", .ofText "lib/../src/.")]).get? "@" =
        some (.ofText "/r/src") ∧
      Substitutes ⟨.ofConfig (.ofText "/r") [("@", .ofText "lib/../src/.")], [], ["js"]⟩
        (.ofText "/r/main.js") "@" "views//./list/" (.ofText "/r/src") := by
  have hdir : (AliasTable.ofConfig (.ofText "/r") [("@", .ofText "lib/../src/.")]).get? "@" =
      some (.ofText "/r/src") := by decide +kernel
  exact ⟨by decide, by decide, hdir, substitutes_of_alias (by decide) (by decide) hdir⟩

/-- A resolver with an alias for a directory of sources. -/
def Doubled.resolver : Resolver := ⟨.ofConfig (.ofText "/r") [("@", .ofText "src")], [], ["js"]⟩

/-- A second separator after the alias leads out of its directory. -/
theorem base_ne_of_doubled_separator :
    Doubled.resolver.aliases.get? "@" = some (.ofText "/r/src") ∧
      Doubled.resolver.base (.ofText "/r/main.js") ("@" ++ "/" ++ "/x.js") = .ofText "/x.js" ∧
      (Path.ofText ("/r/src" ++ "/" ++ "/x.js")).clean = .ofText "/r/src/x.js" ∧
      Doubled.resolver.base (.ofText "/r/main.js") ("@" ++ "/" ++ "/x.js") ≠
        (Path.ofText ("/r/src" ++ "/" ++ "/x.js")).clean ∧
      ".." ∉ segmentsOf "/x.js" ∧
      ¬(Path.ofText "/r/src").parts <+:
        (Doubled.resolver.base (.ofText "/r/main.js") ("@" ++ "/" ++ "/x.js")).parts := by
  have hbase : Doubled.resolver.base (.ofText "/r/main.js") ("@" ++ "/" ++ "/x.js") =
      .ofText "/x.js" := by decide +kernel
  have hclean : (Path.ofText ("/r/src" ++ "/" ++ "/x.js")).clean = .ofText "/r/src/x.js" := by
    decide +kernel
  rw [hbase, hclean]
  exact ⟨by decide +kernel, rfl, rfl, by decide, by decide +kernel, by decide +kernel⟩

end Resolver
end ImpactGraph
