import ImpactGraph.Proofs.Settings.Layer
import ImpactGraph.Settings.Load

/-!
# The section that settings are loaded from

A settings file holds a section, an object whose members set fields under either of their spellings.
`SettingsSource.Reads` says which members a source reads, and `Settings.layerOfMembers` is the layer
of them, in which every field goes by its name.  What the section sets for a field does not depend
on how the field is spelled there (`Settings.value?_layerOfMembers`).
-/

set_option autoImplicit false

namespace ImpactGraph

variable {members : List (String × Json)} {f : Field} {answers : (q : DiskQuestion) → q.Answer}
  {source : SettingsSource} {overrides : Overrides}

namespace Settings

/-- The layer of a section with these members. -/
def layerOfMembers (members : List (String × Json)) : Layer :=
  Setting.layerOfJson .given
    ((Field.renamed members).foldl (fun es e ↦ Entries.insert compare e.1 e.2 es) [])

theorem tidy_layerOfMembers (members : List (String × Json)) : (layerOfMembers members).Tidy :=
  Layer.tidy_layerOfJson

theorem mem_keys_layerOfMembers {key : String} :
    key ∈ (layerOfMembers members).map Prod.fst ↔ key ∈ (Field.renamed members).map Prod.fst := by
  rw [layerOfMembers, Setting.mem_keys_layerOfJson, Entries.mem_keys_foldl_insert]
  simp

theorem named_layerOfMembers (members : List (String × Json)) :
    Field.Named (layerOfMembers members) := fun f k hk ↦
  Field.named_renamed f k (mem_keys_layerOfMembers.1 hk)

theorem get?_layerOfMembers {key : String} :
    Entries.get? compare key (layerOfMembers members) =
      (Entries.get? compare key (Field.renamed members).reverse).map (Setting.ofJson .given) := by
  rw [layerOfMembers, Setting.get?_layerOfJson, Entries.get?_foldl_insert, Entries.get?_nil,
    Option.or_none]

/-- What a section sets for a field, under either of its spellings. -/
theorem value?_layerOfMembers (h : (Field.spelled members).Nodup) :
    f.value? (layerOfMembers members) = (f.value? members).map (Setting.ofJson .given) := by
  have hname := Field.ofSpelling?_name f
  have hreverse : f.GoesBy f.name (Field.renamed members).reverse := fun k hk ↦
    Field.named_renamed f k (by simpa using hk)
  rw [Field.value?_eq_get? hname (named_layerOfMembers members f), get?_layerOfMembers,
    ← Field.value?_eq_get? hname hreverse,
    ← Field.value?_perm (List.reverse_perm _).symm (by rwa [Field.spelled_renamed]),
    Field.value?_renamed]

/-- The members of the section in a settings file. -/
inductive IsSection (path : Path) (answers : (q : DiskQuestion) → q.Answer) :
    List (String × Json) → Prop
  /-- The file holds settings and nothing else. -/
  | own {text : String} {members : List (String × Json)} (hext : path.extension? = some "toml")
      (htext : (Disk.text path).run answers = .ok text)
      (hparse : Toml.parse? text = some (.object members)) : IsSection path answers members
  /-- The file is a package file. -/
  | package {members : List (String × Json)} (hext : path.extension? = some "json")
      (hsection : (packageSection path).run answers = .ok (some (.object members))) :
      IsSection path answers members

theorem run_layerOfFile_eq_ok_iff {path : Path} {layer : Layer} :
    (layerOfFile path).run answers = .ok layer ↔
      ∃ members, IsSection path answers members ∧ layer = layerOfMembers members := by
  constructor
  · intro h
    rw [layerOfFile] at h
    split at h
    · next hext =>
      rw [Dialogue.run_bind] at h
      cases htext : (Disk.text path).run answers with
      | error e => rw [htext] at h; cases h
      | ok text =>
        rw [htext] at h
        dsimp only at h
        cases hparse : Toml.parse? text with
        | none => rw [hparse] at h; cases h
        | some value =>
          cases value with
          | object members =>
            rw [hparse] at h
            cases h
            exact ⟨members, .own hext htext hparse, rfl⟩
          | _ => rw [hparse] at h; cases h
    · next hext =>
      rw [Dialogue.run_bind] at h
      cases hsection : (packageSection path).run answers with
      | error e => rw [hsection] at h; cases h
      | ok found =>
        rw [hsection] at h
        cases found with
        | none => cases h
        | some value =>
          cases value with
          | object members =>
            cases h
            exact ⟨members, .package hext hsection, rfl⟩
          | _ => cases h
    · cases h
  · rintro ⟨members, ⟨hext, htext, hparse⟩ | ⟨hext, hsection⟩, rfl⟩
    · simp only [layerOfFile, hext, Dialogue.run_bind, htext, hparse]
      rfl
    · simp only [layerOfFile, hext, Dialogue.run_bind, hsection]
      rfl

end Settings

namespace SettingsSource

/-- The members of the section that a source reads; without a settings file there are none. -/
inductive Reads (source : SettingsSource) (answers : (q : DiskQuestion) → q.Answer) :
    List (String × Json) → Prop
  /-- There is no settings file. -/
  | nothing (h : source.settingsFile.run answers = .ok none) : Reads source answers []
  /-- The section stands in a settings file. -/
  | file {path : Path} {members : List (String × Json)}
      (h : source.settingsFile.run answers = .ok (some path))
      (hsection : Settings.IsSection path answers members) : Reads source answers members

/-- The layer of the settings file is the one of the section that is read. -/
theorem run_fileLayer_eq_ok_iff {layer : Layer} :
    source.fileLayer.run answers = .ok layer ↔
      ∃ members, source.Reads answers members ∧ layer = Settings.layerOfMembers members := by
  rw [fileLayer, Dialogue.run_bind]
  constructor
  · intro h
    cases hfile : source.settingsFile.run answers with
    | error fault => rw [hfile] at h; cases h
    | ok found =>
      rw [hfile] at h
      cases found with
      | none =>
        cases h
        exact ⟨[], .nothing hfile, rfl⟩
      | some path =>
        obtain ⟨members, hsection, rfl⟩ := Settings.run_layerOfFile_eq_ok_iff.1 h
        exact ⟨members, .file hfile hsection, rfl⟩
  · rintro ⟨members, h | ⟨h, hsection⟩, rfl⟩
    · rw [h]
      rfl
    · rw [h]
      exact Settings.run_layerOfFile_eq_ok_iff.2 ⟨members, hsection, rfl⟩

/-- A disk on which every path leads to a file with this text. -/
def diskOf (text : String) : (q : DiskQuestion) → q.Answer
  | .metadata _ => .ok ⟨text.utf8ByteSize, true, false⟩
  | .text _ => .ok text

/-- The settings that are loaded are those of all layers together. -/
theorem run_load_of_reads (h : source.Reads answers members) :
    (source.load overrides).run answers =
      Settings.ofLayer
        (layers (Settings.layerOfMembers members) source.environment overrides) := by
  rw [load, Dialogue.run_bind, run_fileLayer_eq_ok_iff.2 ⟨members, h, rfl⟩]
  rfl

end SettingsSource
end ImpactGraph
