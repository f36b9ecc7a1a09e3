import ImpactGraph.Files.Stored
import ImpactGraph.Proofs.Path
import ImpactGraph.Scan.System

/-!
# What a module is loaded with

Loading a file asks for its size and its bytes; what comes of the answers depends on the path only
by its extension.  So a file tree that does not tell two spellings of a path apart
(`FileTree.Lawful`) gives the same facts for both (`facts_congr`).
-/

set_option autoImplicit false

namespace ImpactGraph

open Source

/-- A file tree that gives the same answers for all spellings of a path among these, up to the text
of a fault. -/
structure FileTree.Lawful (files : FileTree) (S : Path → Prop) : Prop where
  metadata : ∀ {p q : Path}, S p → S q → p.parts = q.parts →
    (files (.metadata p)).toOption = (files (.metadata q)).toOption
  contents : ∀ {p q : Path}, S p → S q → p.parts = q.parts →
    (files (.contents p)).toOption = (files (.contents q)).toOption

/-- The tree that has a file for each of these texts and no links. -/
def FileTree.ofTexts (texts : List (Path × String)) : FileTree
  | .metadata p =>
    match texts.find? (·.1.same p) with
    | some (_, text) => .ok ⟨text.utf8ByteSize, true, false⟩
    | none => .error (.notFound p)
  | .canonical p => .ok p.clean
  | .contents p =>
    match texts.find? (·.1.same p) with
    | some (_, text) => .ok text.toUTF8
    | none => .error (.notFound p)
  | .workingDirectory => .error (.other "no working directory")

theorem FileTree.lawful_ofTexts (texts : List (Path × String)) (S : Path → Prop) :
    (ofTexts texts).Lawful S := by
  have hfind {p q : Path} (h : p.parts = q.parts) :
      texts.find? (·.1.same p) = texts.find? (·.1.same q) := by simp only [Path.same, h]
  refine ⟨fun {p q} _ _ h ↦ ?_, fun {p q} _ _ h ↦ ?_⟩ <;>
  · simp only [ofTexts, hfind h]
    cases texts.find? (·.1.same q) <;> rfl

/-- A tree in memory looks at nothing but the parts of a path. -/
theorem StoredTree.lawful_inMemory (tree : StoredTree) (workingDirectory : Except FileFault Path)
    (S : Path → Prop) : FileTree.Lawful (tree.inMemory workingDirectory) S := by
  have hwalk {p q : Path} (h : p.parts = q.parts) : tree.walk? p = tree.walk? q := by
    simp only [walk?, h]
  refine ⟨fun {p q} _ _ h ↦ ?_, fun {p q} _ _ h ↦ ?_⟩
  · simp only [inMemory, hwalk h]
    cases (tree.walk? q).bind tree.entry? <;> rfl
  · simp only [inMemory, hwalk h]
    cases (tree.walk? q).bind tree.entry? with
    | none => rfl
    | some entry => cases entry <;> rfl

variable {plan : ScanPlan} {files : FileTree} {p q : Path}

/-- The text in the bytes of a file, unless there are too many. -/
def textOf (bytes : ByteArray) : Option String :=
  if Component.maxFileSize < bytes.size then none else String.fromUTF8? bytes

theorem toOption_decodeText (bytes : ByteArray) : (decodeText p bytes).toOption = textOf bytes := by
  rw [decodeText, textOf]
  split
  · rfl
  · cases String.fromUTF8? bytes <;> rfl

theorem toOption_run_readText :
    ((readText p).run files).toOption =
      if (files (.metadata p)).toOption.any (Component.maxFileSize < ·.size) then none
      else (files (.contents p)).toOption.bind textOf := by
  have hcontents (next : Except FileFault ByteArray → Files (Except LoadFault String))
      (herror : ∀ fault, next (.error fault) = pure (.error (.read p fault)))
      (hok : ∀ bytes, next (.ok bytes) = pure (decodeText p bytes)) :
      ((Files.contents p >>= next).run files).toOption =
        (files (.contents p)).toOption.bind textOf := by
    rw [Dialogue.run_bind, Files.run_contents]
    cases files (.contents p) with
    | error fault => rw [herror]; rfl
    | ok bytes => rw [hok]; exact toOption_decodeText bytes
  rw [readText, Dialogue.run_bind, Files.run_metadata]
  cases files (.metadata p) with
  | error fault => exact hcontents _ (fun _ ↦ rfl) fun _ ↦ rfl
  | ok found =>
    show _ = if decide (Component.maxFileSize < found.size) = true then _ else _
    by_cases hsize : Component.maxFileSize < found.size
    · simp only [hsize, if_true, decide_true]
      rfl
    · simp only [hsize, if_false, decide_false, Bool.false_eq_true]
      exact hcontents _ (fun _ ↦ rfl) fun _ ↦ rfl

theorem toOption_run_load :
    ((load p).run files).toOption =
      ((readText p).run files).toOption.bind fun contents ↦
        (LoadedText.ofContents p contents).toOption := by
  rw [load, Dialogue.run_bind]
  cases (readText p).run files <;> rfl

theorem ofContents_congr (h : p.parts = q.parts) (contents : String) :
    (LoadedText.ofContents p contents).toOption = (LoadedText.ofContents q contents).toOption := by
  have hscripts : Component.scriptsOf? p contents = Component.scriptsOf? q contents := by
    rw [Component.scriptsOf?, Component.scriptsOf?, Path.extension?_congr h]
  rw [LoadedText.ofContents, LoadedText.ofContents, hscripts]
  cases Component.scriptsOf? q contents with
  | none => rw [Dialect.ofPath, Dialect.ofPath, Path.extension?_congr h]
  | some scripts => cases scripts <;> rfl

theorem toOption_ofText_congr (dialect : Dialect) (marker text : String) :
    (ModuleFacts.ofText p dialect marker text).toOption =
      (ModuleFacts.ofText q dialect marker text).toOption := by
  rw [ModuleFacts.ofText, ModuleFacts.ofText]
  cases parse? dialect text <;> rfl

theorem toOption_run_facts :
    ((plan.facts p).run files).toOption =
      ((load p).run files).toOption.bind fun loaded ↦
        (ModuleFacts.ofText p loaded.dialect plan.marker loaded.text).toOption := by
  rw [ScanPlan.facts, Dialogue.run_bind]
  cases (load p).run files with
  | error fault => rfl
  | ok loaded =>
    show _ = (ModuleFacts.ofText p loaded.dialect plan.marker loaded.text).toOption
    dsimp only
    cases ModuleFacts.ofText p loaded.dialect plan.marker loaded.text <;> rfl

/-- All spellings of a path are loaded with the same facts. -/
theorem facts_congr {S : Path → Prop} (hfiles : FileTree.Lawful files S) (hp : S p) (hq : S q)
    (h : p.parts = q.parts) :
    ((plan.facts p).run files).toOption = ((plan.facts q).run files).toOption := by
  rw [toOption_run_facts, toOption_run_facts, toOption_run_load, toOption_run_load,
    toOption_run_readText, toOption_run_readText, hfiles.metadata hp hq h,
    hfiles.contents hp hq h]
  simp only [ofContents_congr h, toOption_ofText_congr (p := p) (q := q)]

end ImpactGraph
