import ImpactGraph.Proofs.Component.Script
import ImpactGraph.Proofs.Text.Bytes
import ImpactGraph.Source.Load
import Mathlib.Algebra.Order.BigOperators.Group.List
import Mathlib.Algebra.Order.Group.Nat

/-!
# How much text is loaded

Whatever the surroundings answer, a text that is loaded takes no more bytes than a file may
(`bounded_of_runs`).  The answers need not be true, and need not be the same when they are asked for
again: `Dialogue.Runs` is a run of a dialogue under any answers at all.

The size of a file is looked at twice, before and after it is read, and nothing is read in the first
case.  The scripts of a component are joined, which adds bytes between them; but each of them has
left a tag behind, and even the shortest tag is longer than what is added
(`utf8ByteSize_ofScripts_le`).
-/

set_option autoImplicit false

namespace ImpactGraph

/-! ## Answers from anywhere -/

namespace Dialogue

variable {Q : Type} {Answer : Q → Type} {α β : Type}

/-- A dialogue comes to a result by these questions with these answers. -/
inductive Runs : Dialogue Q Answer α → List ((q : Q) × Answer q) → α → Prop
  | done (result : α) : Runs (done result) [] result
  | ask {q : Q} {next : Answer q → Dialogue Q Answer α} {answer : Answer q}
      {log : List ((q : Q) × Answer q)} {result : α} :
      Runs (next answer) log result → Runs (ask q next) (⟨q, answer⟩ :: log) result

theorem runs_pure_iff {a result : α} {log : List ((q : Q) × Answer q)} :
    Runs (pure a : Dialogue Q Answer α) log result ↔ log = [] ∧ result = a := by
  constructor
  · rintro ⟨⟩
    exact ⟨rfl, rfl⟩
  · rintro ⟨rfl, rfl⟩
    exact .done _

theorem runs_bind_iff {d : Dialogue Q Answer α} {f : α → Dialogue Q Answer β} {result : β}
    {log : List ((q : Q) × Answer q)} :
    Runs (d >>= f) log result ↔
      ∃ first rest a, log = first ++ rest ∧ Runs d first a ∧ Runs (f a) rest result := by
  show Runs (d.bind f) log result ↔ _
  induction d generalizing log with
  | done a =>
    constructor
    · exact fun h ↦ ⟨[], log, a, rfl, .done a, h⟩
    · rintro ⟨first, rest, a, rfl, ⟨⟩, h⟩
      exact h
  | ask q next ih =>
    constructor
    · rintro (_ | h)
      obtain ⟨first, rest, a, rfl, hfirst, hrest⟩ := (ih _).1 h
      exact ⟨_ :: first, rest, a, rfl, .ask hfirst, hrest⟩
    · rintro ⟨_, rest, a, rfl, _ | hfirst, hrest⟩
      exact .ask ((ih _).2 ⟨_, rest, a, rfl, hfirst, hrest⟩)

/-- A fixed function of the questions is one way to get the answers. -/
theorem runs_run (answer : (q : Q) → Answer q) (d : Dialogue Q Answer α) :
    d.Runs ((d.asked answer).map fun q ↦ ⟨q, answer q⟩) (d.run answer) := by
  induction d with
  | done result => exact .done result
  | ask q next ih => exact .ask (ih (answer q))

end Dialogue

namespace Source

open Component

variable {path : Path} {log : List ((q : FileQuestion) × q.Answer)}

/-! ## One file -/

/-- What is known of a file before it is read does not rule out that it is read. -/
def Fits (known : Except FileFault Metadata) : Prop :=
  ∀ found, known = .ok found → found.size ≤ maxFileSize

/-- What comes of the bytes of a file. -/
def textOfAnswer (path : Path) : Except FileFault ByteArray → Except LoadFault String
  | .error fault => .error (.read path fault)
  | .ok bytes => decodeText path bytes

/-- The ways to come to the text of a file. -/
inductive Reads (path : Path) :
    List ((q : FileQuestion) × q.Answer) → Except LoadFault String → Prop
  /-- The file is said to be too large, and is not read. -/
  | spared {found : Metadata} : maxFileSize < found.size →
      Reads path [⟨.metadata path, .ok found⟩] (.error (.tooLarge path found.size maxFileSize))
  /-- The file is asked for. -/
  | asked {known : Except FileFault Metadata} {answer : Except FileFault ByteArray} : Fits known →
      Reads path [⟨.metadata path, known⟩, ⟨.contents path, answer⟩] (textOfAnswer path answer)

/-- Asks for the bytes of a file and makes a text of them. -/
def askText (path : Path) : Files (Except LoadFault String) :=
  .ask (.contents path) fun answer ↦ .done (textOfAnswer path answer)

theorem readText_eq (path : Path) :
    readText path = .ask (.metadata path) fun known : Except FileFault Metadata ↦
      match known with
      | .error _ => askText path
      | .ok found =>
        if maxFileSize < found.size then
          .done (.error (.tooLarge path found.size maxFileSize))
        else askText path := by
  have hask : (Files.contents path >>= fun answer ↦ match answer with
      | .error fault => pure (.error (.read path fault))
      | .ok bytes => pure (decodeText path bytes) : Files (Except LoadFault String)) =
        askText path := by
    refine congrArg (Dialogue.ask _) (funext fun answer : Except FileFault ByteArray ↦ ?_)
    cases answer <;> rfl
  refine congrArg (Dialogue.ask _) (funext fun known : Except FileFault Metadata ↦ ?_)
  cases known with
  | error fault => exact hask
  | ok found => exact congrArg (ite _ _) hask

theorem runs_askText_iff {text : Except LoadFault String} :
    (askText path).Runs log text ↔
      ∃ answer, log = [⟨.contents path, answer⟩] ∧ text = textOfAnswer path answer := by
  constructor
  · rintro (_ | ⟨⟨⟩⟩)
    exact ⟨_, rfl, rfl⟩
  · rintro ⟨answer, rfl, rfl⟩
    exact .ask (.done _)

theorem runs_readText_iff {text : Except LoadFault String} :
    (readText path).Runs log text ↔ Reads path log text := by
  rw [readText_eq]
  constructor
  · rintro (_ | h)
    dsimp only at h
    split at h
    · obtain ⟨answer, rfl, rfl⟩ := runs_askText_iff.1 h
      exact .asked (by rintro found ⟨⟩)
    · split at h
      · next hsize =>
        cases h
        exact .spared hsize
      · next found hsize =>
        obtain ⟨answer, rfl, rfl⟩ := runs_askText_iff.1 h
        refine .asked ?_
        rintro _ ⟨⟩
        exact Nat.not_lt.1 hsize
  · intro h
    cases h with
    | spared hsize =>
      refine .ask ?_
      dsimp only
      rw [if_pos hsize]
      exact .done _
    | @asked known answer hfits =>
      refine .ask ?_
      have hask : (askText path).Runs [⟨.contents path, answer⟩] (textOfAnswer path answer) :=
        runs_askText_iff.2 ⟨answer, rfl, rfl⟩
      cases known with
      | error fault => exact hask
      | ok found =>
        dsimp only
        rw [if_neg (Nat.not_lt.2 (hfits found rfl))]
        exact hask

theorem runs_load_iff {result : Except LoadFault LoadedText} :
    (load path).Runs log result ↔
      ∃ text, Reads path log text ∧ result = text.bind (LoadedText.ofContents path) := by
  simp only [load, Dialogue.runs_bind_iff, runs_readText_iff]
  constructor
  · rintro ⟨first, rest, text, rfl, hreads, hrest⟩
    have hend : rest = [] ∧ result = text.bind (LoadedText.ofContents path) := by
      cases text <;> exact Dialogue.runs_pure_iff.1 hrest
    obtain ⟨rfl, hresult⟩ := hend
    exact ⟨text, (List.append_nil first).symm ▸ hreads, hresult⟩
  · rintro ⟨text, hreads, rfl⟩
    exact ⟨log, [], text, (List.append_nil log).symm, hreads, by cases text <;> exact .done _⟩

/-! ## Sizes -/

theorem decodeText_eq_ok_iff {bytes : ByteArray} {text : String} :
    decodeText path bytes = .ok text ↔
      bytes.size ≤ maxFileSize ∧ String.fromUTF8? bytes = some text := by
  rw [decodeText]
  split
  · next hsize => simp [Nat.not_le.2 hsize]
  · next hsize =>
    cases String.fromUTF8? bytes <;> simp [Nat.not_lt.1 hsize]

theorem utf8ByteSize_of_fromUTF8? {bytes : ByteArray} {text : String}
    (h : String.fromUTF8? bytes = some text) : text.utf8ByteSize = bytes.size := by
  rw [String.fromUTF8?] at h
  split at h
  · cases h
    rfl
  · cases h

theorem utf8Length_intercalate_le (sep : List Char) (texts : List (List Char)) :
    Text.utf8Length (sep.intercalate texts) ≤
      (texts.map fun text ↦ Text.utf8Length sep + Text.utf8Length text).sum := by
  induction texts with
  | nil => simp
  | cons text texts ih =>
    cases texts with
    | nil => simp
    | cons next texts =>
      rw [List.intercalate_cons_cons, List.map_cons, List.sum_cons, Text.utf8Length_append,
        Text.utf8Length_append]
      omega

theorem toList_ofScripts (found : List Script) :
    (LoadedText.ofScripts found).text.toList =
      ['\n', '\n'].intercalate (found.map (·.text.toList)) := by
  rw [LoadedText.ofScripts, String.toList_intercalate, List.map_map]
  rfl

/-- Joining the scripts of a component makes no text that is longer than the component. -/
theorem utf8ByteSize_ofScripts_le {contents : String} {found : List Script}
    (h : scripts contents = .ok found) :
    (LoadedText.ofScripts found).text.utf8ByteSize ≤ contents.utf8ByteSize := by
  have hscripts : scriptsFrom 0 [] contents.toList = .ok found := by
    rw [scripts] at h
    split at h
    · cases h
    · exact h
  -- what is put between two scripts is shorter than the tag before the second one
  have hspan : ∀ script ∈ found,
      Text.utf8Length ['\n', '\n'] + Text.utf8Length script.text.toList ≤ script.span :=
    fun script _ ↦ Nat.add_le_add_right (by decide) _
  calc (LoadedText.ofScripts found).text.utf8ByteSize
    _ = Text.utf8Length (['\n', '\n'].intercalate (found.map (·.text.toList))) := by
      rw [Text.utf8ByteSize_eq, toList_ofScripts]
    _ ≤ (found.map fun script ↦
          Text.utf8Length ['\n', '\n'] + Text.utf8Length script.text.toList).sum := by
      have hjoined := utf8Length_intercalate_le ['\n', '\n'] (found.map (·.text.toList))
      rwa [List.map_map] at hjoined
    _ ≤ (found.map Script.span).sum := List.sum_le_sum hspan
    _ ≤ 0 + Text.utf8Length contents.toList := sum_span_scriptsFrom hscripts (Nat.le_refl 0)
    _ = contents.utf8ByteSize := by rw [Nat.zero_add, Text.utf8ByteSize_eq]

/-! ## What is loaded -/

/-- Scripts as one text, with blank lines between them, in the first dialect that is not
JavaScript. -/
structure Joins (found : List Script) (loaded : LoadedText) : Prop where
  text_eq : loaded.text.toList = ['\n', '\n'].intercalate (found.map (·.text.toList))
  dialect : (∃ before script after, found = before ++ script :: after ∧
      (∀ earlier ∈ before, Dialect.ofLang earlier.lang = .javaScript) ∧
      Dialect.ofLang script.lang ≠ .javaScript ∧ loaded.dialect = Dialect.ofLang script.lang) ∨
    (∀ script ∈ found, Dialect.ofLang script.lang = .javaScript) ∧ loaded.dialect = .javaScript

theorem dialect_ofScripts (found : List Script) :
    (LoadedText.ofScripts found).dialect =
      match found.find? fun script ↦ Dialect.ofLang script.lang ≠ .javaScript with
      | none => .javaScript
      | some script => Dialect.ofLang script.lang := by
  have hdialect : (LoadedText.ofScripts found).dialect =
      ((found.find? fun script ↦ Dialect.ofLang script.lang ≠ .javaScript).map
        fun script ↦ Dialect.ofLang script.lang).getD .javaScript :=
    congrArg (Option.getD · _) List.find?_map
  rw [hdialect]
  cases found.find? fun script ↦ Dialect.ofLang script.lang ≠ .javaScript <;> rfl

theorem joins_iff {found : List Script} {loaded : LoadedText} :
    Joins found loaded ↔ loaded = .ofScripts found := by
  constructor
  · rintro ⟨htext, hdialect⟩
    have hdialect' : loaded.dialect = (LoadedText.ofScripts found).dialect := by
      rw [dialect_ofScripts]
      rcases hdialect with ⟨before, script, after, hfound, hbefore, hscript, heq⟩ | ⟨hall, heq⟩
      · have hfind : found.find? (fun script ↦ Dialect.ofLang script.lang ≠ .javaScript) =
            some script :=
          List.find?_eq_some_iff_append.2
            ⟨by simpa using hscript, before, after, hfound, by simpa using hbefore⟩
        rw [heq, hfind]
      · have hfind : found.find? (fun script ↦ Dialect.ofLang script.lang ≠ .javaScript) = none :=
          List.find?_eq_none.2 (by simpa using hall)
        rw [heq, hfind]
    have htext' : loaded.text = (LoadedText.ofScripts found).text :=
      String.toList_inj.1 (htext.trans (toList_ofScripts found).symm)
    cases loaded
    simp_all
  · rintro rfl
    refine ⟨toList_ofScripts found, ?_⟩
    rw [dialect_ofScripts]
    cases hfind : found.find? fun script ↦ Dialect.ofLang script.lang ≠ .javaScript with
    | none => exact .inr ⟨by simpa using hfind, rfl⟩
    | some script =>
      obtain ⟨hscript, before, after, hfound, hbefore⟩ := List.find?_eq_some_iff_append.1 hfind
      exact .inl ⟨before, script, after, hfound, by simpa using hbefore, by simpa using hscript,
        rfl⟩

/-- What it takes to load the text of a module, and what is loaded. -/
structure Bounded (path : Path) (log : List ((q : FileQuestion) × q.Answer))
    (result : Except LoadFault LoadedText) : Prop where
  /-- The file is asked for once at the most, and nothing else but what is known of it. -/
  asked : (log.map Sigma.fst).Sublist [.metadata path, .contents path]
  /-- It is not asked for if it is said to be too large, be that true or not. -/
  spared : ∀ found : Metadata, ⟨.metadata path, .ok found⟩ ∈ log → maxFileSize < found.size →
    .contents path ∉ log.map Sigma.fst ∧
      result = .error (.tooLarge path found.size maxFileSize)
  /-- A text that is loaded takes no more bytes than a file may. -/
  size_le : ∀ loaded, result = .ok loaded → loaded.text.utf8ByteSize ≤ maxFileSize
  /-- No scripts are looked for in a file that is too large. -/
  not_scripts : ∀ (p : Path) (size max : Nat), result ≠ .error (.scripts p (.fileTooLarge size max))
  /-- What is loaded of a component is its scripts, joined in the order in which they stand. -/
  component : path.extension? = some fileExtension → ∀ loaded, result = .ok loaded ↔
    ∃ bytes contents found, ⟨.contents path, .ok bytes⟩ ∈ log ∧ bytes.size ≤ maxFileSize ∧
      String.fromUTF8? bytes = some contents ∧ scripts contents = .ok found ∧
      Extracted contents.toList found ∧ Joins found loaded

section

variable {known known' : Except FileFault Metadata} {answer answer' : Except FileFault ByteArray}

theorem metadata_ne_contents : (⟨.metadata path, known⟩ : (q : FileQuestion) × q.Answer) ≠
    ⟨.contents path, answer⟩ := by
  rintro ⟨⟩

theorem metadata_inj (h : (⟨.metadata path, known⟩ : (q : FileQuestion) × q.Answer) =
    ⟨.metadata path, known'⟩) : known = known' := by
  cases h
  rfl

theorem contents_inj (h : (⟨.contents path, answer⟩ : (q : FileQuestion) × q.Answer) =
    ⟨.contents path, answer'⟩) : answer = answer' := by
  cases h
  rfl

end

namespace Reads

variable {text : Except LoadFault String} {contents : String}

/-- A file that is said to be too large is not asked for. -/
theorem eq_of_lt {found : Metadata} (h : Reads path log text)
    (hfound : ⟨.metadata path, .ok found⟩ ∈ log) (hsize : maxFileSize < found.size) :
    log = [⟨.metadata path, .ok found⟩] ∧
      text = .error (.tooLarge path found.size maxFileSize) := by
  cases h with
  | spared =>
    obtain ⟨⟩ := metadata_inj (List.mem_singleton.1 hfound)
    exact ⟨rfl, rfl⟩
  | @asked known answer hfits =>
    rw [List.mem_cons, List.mem_singleton] at hfound
    obtain ⟨⟩ := metadata_inj (hfound.resolve_right metadata_ne_contents)
    exact absurd hsize (Nat.not_lt.2 (hfits found rfl))

theorem text_eq_ok_iff (h : Reads path log text) :
    text = .ok contents ↔ ∃ bytes, ⟨.contents path, .ok bytes⟩ ∈ log ∧ bytes.size ≤ maxFileSize ∧
      String.fromUTF8? bytes = some contents := by
  cases h with
  | spared =>
    constructor
    · rintro ⟨⟩
    · rintro ⟨bytes, hmem, -⟩
      exact absurd (List.mem_singleton.1 hmem).symm metadata_ne_contents
  | @asked known answer hfits =>
    have hmem (bytes : ByteArray) : (⟨.contents path, .ok bytes⟩ : (q : FileQuestion) × q.Answer) ∈
        [⟨.metadata path, known⟩, ⟨.contents path, answer⟩] ↔ answer = .ok bytes := by
      rw [List.mem_cons, List.mem_singleton, or_iff_right metadata_ne_contents.symm]
      exact ⟨fun h ↦ (contents_inj h).symm, fun h ↦ by rw [h]⟩
    simp only [hmem]
    cases answer with
    | error fault => simp [textOfAnswer]
    | ok bytes => simp [textOfAnswer, decodeText_eq_ok_iff]

/-- A text that is read takes no more bytes than a file may. -/
theorem utf8ByteSize_le (h : Reads path log (.ok contents)) :
    contents.utf8ByteSize ≤ maxFileSize := by
  obtain ⟨bytes, -, hsize, hbytes⟩ := h.text_eq_ok_iff.1 rfl
  rwa [utf8ByteSize_of_fromUTF8? hbytes]

/-- Reading a file is never a matter of scripts. -/
theorem ne_scripts (h : Reads path log text) (p : Path) (fault : Component.Fault) :
    text ≠ .error (.scripts p fault) := by
  cases h with
  | spared => simp
  | @asked known answer =>
    cases answer with
    | error fault => simp [textOfAnswer]
    | ok bytes =>
      rw [textOfAnswer, decodeText]
      split
      · simp
      · cases String.fromUTF8? bytes <;> simp

end Reads

section

variable {contents : String} {loaded : LoadedText}

theorem ofContents_plain (hpath : path.extension? ≠ some fileExtension) :
    LoadedText.ofContents path contents = .ok ⟨contents, .ofPath path⟩ := by
  rw [LoadedText.ofContents, scriptsOf?, if_neg hpath]

theorem ofContents_component (hpath : path.extension? = some fileExtension) :
    LoadedText.ofContents path contents =
      match scripts contents with
      | .ok found => .ok (.ofScripts found)
      | .error fault => .error (.scripts path fault) := by
  rw [LoadedText.ofContents, scriptsOf?, if_pos hpath]
  cases scripts contents <;> rfl

theorem ofContents_component_eq_ok_iff (hpath : path.extension? = some fileExtension) :
    LoadedText.ofContents path contents = .ok loaded ↔
      ∃ found, scripts contents = .ok found ∧ Extracted contents.toList found ∧
        Joins found loaded := by
  have hsound := sound_scripts contents
  rw [ofContents_component hpath]
  cases hscripts : scripts contents with
  | error fault => simp
  | ok found =>
    rw [hscripts] at hsound
    simp only [Except.ok.injEq, joins_iff]
    constructor
    · rintro rfl
      exact ⟨found, rfl, hsound, rfl⟩
    · rintro ⟨_, rfl, -, rfl⟩
      rfl

/-- What is loaded of a text takes no more bytes than the text. -/
theorem utf8ByteSize_le_of_ofContents (h : LoadedText.ofContents path contents = .ok loaded) :
    loaded.text.utf8ByteSize ≤ contents.utf8ByteSize := by
  by_cases hpath : path.extension? = some fileExtension
  · obtain ⟨found, hscripts, -, hjoins⟩ := (ofContents_component_eq_ok_iff hpath).1 h
    rw [joins_iff.1 hjoins]
    exact utf8ByteSize_ofScripts_le hscripts
  · rw [ofContents_plain hpath] at h
    cases h
    exact Nat.le_refl _

theorem ofContents_ne_fileTooLarge (hsize : contents.utf8ByteSize ≤ maxFileSize) (p : Path)
    (size max : Nat) :
    LoadedText.ofContents path contents ≠ .error (.scripts p (.fileTooLarge size max)) := by
  by_cases hpath : path.extension? = some fileExtension
  · have hscripts := scripts_ne_fileTooLarge hsize size max
    rw [ofContents_component hpath]
    cases h : scripts contents with
    | ok found => simp
    | error fault =>
      rw [h] at hscripts
      simp_all
  · rw [ofContents_plain hpath]
    simp

end

theorem bounded_of_runs {result : Except LoadFault LoadedText} (h : (load path).Runs log result) :
    Bounded path log result := by
  obtain ⟨text, hreads, rfl⟩ := runs_load_iff.1 h
  constructor
  case asked => cases hreads <;> simp
  case spared =>
    intro found hfound hsize
    obtain ⟨rfl, rfl⟩ := hreads.eq_of_lt hfound hsize
    exact ⟨by simp, rfl⟩
  case size_le =>
    intro loaded hloaded
    cases text with
    | error fault => cases hloaded
    | ok contents => exact (utf8ByteSize_le_of_ofContents hloaded).trans hreads.utf8ByteSize_le
  case not_scripts =>
    intro p size max
    cases text with
    | error fault => exact fun h ↦ hreads.ne_scripts p _ (congrArg _ (Except.error.inj h))
    | ok contents => exact ofContents_ne_fileTooLarge hreads.utf8ByteSize_le p size max
  case component =>
    intro hpath loaded
    have hbind : text.bind (LoadedText.ofContents path) = .ok loaded ↔
        ∃ contents, text = .ok contents ∧ LoadedText.ofContents path contents = .ok loaded := by
      cases text <;> simp [Except.bind]
    simp only [hbind, hreads.text_eq_ok_iff, ofContents_component_eq_ok_iff hpath]
    constructor
    · rintro ⟨contents, ⟨bytes, hmem, hsize, hbytes⟩, found, hfound⟩
      exact ⟨bytes, contents, found, hmem, hsize, hbytes, hfound⟩
    · rintro ⟨bytes, contents, found, hmem, hsize, hbytes, hfound⟩
      exact ⟨contents, ⟨bytes, hmem, hsize, hbytes⟩, found, hfound⟩

/-! A component of which less is said than it holds. -/

namespace Understated

/-- A component with three scripts, of which the first one is empty. -/
def contents : String := "<script src='./a'/><script>b</script>\n<script lang=\"ts\">c</script>"

theorem scripts_contents : scripts contents =
    .ok [⟨"", 19, false, "js"⟩, ⟨"b", 27, false, "js"⟩, ⟨"c", 56, false, "ts"⟩] := by
  decide +kernel

/-- The file of the component. -/
def page : Path := .ofText "Page.vue"

/-- The file is said to be empty, but it holds the component. -/
def answers : List ((q : FileQuestion) × q.Answer) :=
  [⟨.metadata page, .ok ⟨0, true, false⟩⟩, ⟨.contents page, .ok contents.toUTF8⟩]

theorem reads_answers : Reads page answers (.ok contents) := by
  have hdecode : decodeText page contents.toUTF8 = .ok contents := by
    refine decodeText_eq_ok_iff.2 ⟨by decide +kernel, ?_⟩
    exact dif_pos contents.isValidUTF8
  rw [← hdecode]
  exact .asked (by rintro _ ⟨⟩; exact Nat.zero_le _)

theorem runs_load : (load page).Runs answers (.ok ⟨"\n\nb\n\nc", .typeScript⟩) := by
  have hload : LoadedText.ofContents page contents = .ok ⟨"\n\nb\n\nc", .typeScript⟩ := by
    rw [ofContents_component (by decide +kernel), scripts_contents]
    rfl
  exact runs_load_iff.2 ⟨_, reads_answers, hload.symm⟩

end Understated

theorem bounded_understated : (load Understated.page).Runs Understated.answers
      (.ok ⟨"\n\nb\n\nc", .typeScript⟩) ∧
    Bounded Understated.page Understated.answers (.ok ⟨"\n\nb\n\nc", .typeScript⟩) :=
  ⟨Understated.runs_load, bounded_of_runs Understated.runs_load⟩

end Source
end ImpactGraph
