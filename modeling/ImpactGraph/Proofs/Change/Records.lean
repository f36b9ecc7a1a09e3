import ImpactGraph.Change.Records
import ImpactGraph.Proofs.Change.Join

/-!
# Reading back change lists

A changed file can be written in three ways (`DiffRecord.Writes`): as an object with its path under
`path` or under `file`, beside what else is said of it, or as the path alone.  Whichever way is
taken for which entry, the list is read back, and an object with a `path` is read alike whether it
stands in a list or is read as a record of its own (`toOption_ofEntry`).

`DiffRecord.Refuses` says what is wrong with a value that is no change list.  An entry is only
blamed if none before it is wrong.
-/

set_option autoImplicit false

namespace ImpactGraph

/-! ## A member and the others -/

namespace Json

/-- The members of an object are a value under a name and, under other names, the entries of a
table, in any order. -/
structure Beside (members : List (String × Json)) (name : String) (value : Json)
    (others : InfoTable) : Prop where
  perm : members.Perm ((name, value) :: others.entries)
  not_mem : name ∉ others.keys

namespace Beside

variable {members : List (String × Json)} {name other : String} {value : Json}
  {others : InfoTable}

theorem nodup (h : Beside members name value others) : (members.map Prod.fst).Nodup :=
  (h.perm.map Prod.fst).nodup_iff.2 (List.nodup_cons.2 ⟨h.not_mem, others.nodup_keys⟩)

theorem member? (h : Beside members name value others) :
    (object members).member? name = some value :=
  member?_of_mem h.nodup (h.perm.mem_iff.2 List.mem_cons_self)

theorem member?_eq_none (h : Beside members name value others) (hne : other ≠ name)
    (hother : other ∉ others.keys) : (object members).member? other = none := by
  have hmem : other ∉ members.map Prod.fst := by
    rw [(h.perm.map Prod.fst).mem_iff, List.map_cons, List.mem_cons, not_or]
    exact ⟨hne, hother⟩
  have hget : Entries.get? compare other members = none := by
    simpa [Entries.mem_keys_iff compare] using hmem
  exact hget

theorem without_eq (h : Beside members name value others) : without name members = others := by
  have hfilter : (members.filter fun e ↦ e.1 != name).Perm others.entries := by
    refine (h.perm.filter _).trans (List.Perm.of_eq ?_)
    rw [List.filter_cons_of_neg (by simp), List.filter_eq_self]
    intro e he
    have hne : e.1 ≠ name := fun heq ↦ h.not_mem (heq ▸ List.mem_map_of_mem he)
    simpa using hne
  exact SortedMap.ofList_of_perm hfilter

end Beside
end Json

namespace DiffRecord

/-! ## Entries -/

/-- The ways to write a changed file as an entry of a list. -/
inductive Writes (r : DiffRecord) : Json → Prop
  /-- As an object with the path under `path`. -/
  | path {members : List (String × Json)} :
      Json.Beside members "path" (.string r.path) r.info → Writes r (.object members)
  /-- As an object with the path under `file`, where nothing stands under `path`. -/
  | file {members : List (String × Json)} :
      Json.Beside members "file" (.string r.path) r.info → "path" ∉ r.info.keys →
      Writes r (.object members)
  /-- As the path alone, where there is nothing else to say. -/
  | bare : r.info = ∅ → Writes r (.string r.path)

/-- The value that counts as the path of an object: that under `path`, or else that under `file`. -/
def pathOf? (entry : Json) : Option Json := (entry.member? "path").or (entry.member? "file")

/-- What is wrong with an entry. -/
inductive Bad : Json → EntryFault → Prop
  /-- It is neither a string nor an object. -/
  | badShape {entry : Json} : (∀ path, entry ≠ .string path) →
      (∀ members, entry ≠ .object members) → Bad entry .badShape
  /-- It is an object without a path. -/
  | noPath {members : List (String × Json)} : pathOf? (.object members) = none →
      Bad (.object members) .noPath
  /-- It is an object, and what counts as its path is no string. -/
  | badPath {members : List (String × Json)} {value : Json} :
      pathOf? (.object members) = some value → (∀ path, value ≠ .string path) →
      Bad (.object members) .badPath

variable {r : DiffRecord} {entry : Json} {fault : EntryFault}

theorem ofEntry_of_writes (h : Writes r entry) : ofEntry entry = .ok r := by
  cases h with
  | path h => simp only [ofEntry, h.member?, h.without_eq]
  | file h hpath =>
    simp only [ofEntry, h.member?_eq_none (by decide) hpath, h.member?, h.without_eq]
  | bare h => simp only [ofEntry, ofPath, ← h]

theorem ofEntry_object (members : List (String × Json)) :
    ofEntry (.object members) =
      match pathOf? (.object members) with
      | none => .error .noPath
      | some (.string path) =>
        let name := if ((Json.object members).member? "path").isSome then "path" else "file"
        .ok ⟨path, without name members⟩
      | some _ => .error .badPath := by
  simp only [ofEntry, pathOf?]
  cases (Json.object members).member? "path" with
  | some path => cases path <;> rfl
  | none =>
    cases (Json.object members).member? "file" with
    | some path => cases path <;> rfl
    | none => rfl

theorem ofEntry_of_bad (h : Bad entry fault) : ofEntry entry = .error fault := by
  cases h with
  | badShape hstring hobject =>
    cases entry with
    | string path => exact absurd rfl (hstring path)
    | object members => exact absurd rfl (hobject members)
    | _ => rfl
  | noPath hpath => rw [ofEntry_object, hpath]
  | @badPath _ value hpath hvalue =>
    rw [ofEntry_object, hpath]
    cases value with
    | string path => exact absurd rfl (hvalue path)
    | _ => rfl

theorem bad_of_ofEntry (h : ofEntry entry = .error fault) : Bad entry fault := by
  cases entry with
  | string path => cases h
  | object members =>
    rw [ofEntry_object] at h
    cases hpath : pathOf? (.object members) with
    | none =>
      rw [hpath] at h
      cases h
      exact .noPath hpath
    | some value =>
      rw [hpath] at h
      cases value with
      | string path => cases h
      | _ =>
        cases h
        exact .badPath hpath (by simp)
  | _ =>
    cases h
    exact .badShape (by simp) (by simp)

theorem mem_keys_without {members : List (String × Json)} {name other : String} :
    other ∈ (without name members).keys ↔ other ≠ name ∧ other ∈ members.map Prod.fst := by
  rw [without, SortedMap.mem_keys_ofList]
  simp [and_comm]

/-- Nothing is said of a changed file under `path`. -/
theorem not_mem_keys_of_ofEntry (h : ofEntry entry = .ok r) : "path" ∉ r.info.keys := by
  cases entry with
  | string path =>
    cases h
    exact List.not_mem_nil
  | object members =>
    rw [ofEntry_object] at h
    split at h
    · cases h
    · cases h
      rw [mem_keys_without, not_and]
      intro hname hmem
      -- the path stood under `file`, so there was no `path`
      split at hname
      · exact hname rfl
      · next hpath => exact hpath ((Entries.mem_keys_iff compare).1 hmem)
    · cases h
  | _ => cases h

/-- An object with a path under `path` is read as an entry as it is read as a record. -/
theorem toOption_ofEntry (h : (entry.member? "path").isSome = true) :
    (ofEntry entry).toOption = ofJson? entry := by
  cases entry with
  | object members =>
    obtain ⟨value, hvalue⟩ := Option.isSome_iff_exists.1 h
    rw [ofEntry_object, pathOf?, hvalue, ofJson?, hvalue]
    cases value <;> rfl
  | _ => cases h

/-! ## Lists -/

theorem ofEntries_of_writes {records : List DiffRecord} {entries : List Json}
    (h : List.Forall₂ Writes records entries) (index : Nat) :
    ofEntries index entries = .ok records := by
  induction h generalizing index with
  | nil => rfl
  | cons hentry _ ih => simp only [ofEntries, ofEntry_of_writes hentry, ih]

theorem forall₂_of_ofEntries {records : List DiffRecord} {entries : List Json} {index : Nat}
    (h : ofEntries index entries = .ok records) :
    List.Forall₂ (fun entry r ↦ ofEntry entry = .ok r) entries records := by
  induction entries generalizing index records with
  | nil =>
    cases h
    exact .nil
  | cons entry entries ih =>
    rw [ofEntries] at h
    cases hentry : ofEntry entry with
    | error fault => simp [hentry] at h
    | ok r =>
      cases hrest : ofEntries (index + 1) entries with
      | error fault => simp [hentry, hrest] at h
      | ok rs =>
        simp only [hentry, hrest, Except.ok.injEq] at h
        exact h ▸ .cons hentry (ih hrest)

/-- The entry at an index is bad, and none before it is. -/
structure FirstBad (entries : List Json) (index : Nat) (fault : EntryFault) : Prop where
  bad : ∃ entry, entries[index]? = some entry ∧ Bad entry fault
  first : ∀ i < index, ∀ entry, entries[i]? = some entry → ∀ fault, ¬Bad entry fault

theorem firstBad_zero_iff {entries : List Json} :
    FirstBad (entry :: entries) 0 fault ↔ Bad entry fault := by
  constructor
  · rintro ⟨⟨e, he, hbad⟩, -⟩
    cases he
    exact hbad
  · exact fun hbad ↦ ⟨⟨entry, rfl, hbad⟩, fun i hi ↦ absurd hi (Nat.not_lt_zero i)⟩

theorem firstBad_succ_iff {entries : List Json} {index : Nat} :
    FirstBad (entry :: entries) (index + 1) fault ↔
      (∀ fault, ¬Bad entry fault) ∧ FirstBad entries index fault := by
  constructor
  · rintro ⟨hbad, hfirst⟩
    exact ⟨hfirst 0 (Nat.succ_pos _) entry rfl,
      hbad, fun i hi ↦ hfirst (i + 1) (Nat.succ_lt_succ hi)⟩
  · rintro ⟨hentry, hbad, hfirst⟩
    refine ⟨hbad, fun i hi e he ↦ ?_⟩
    cases i with
    | zero =>
      cases he
      exact hentry
    | succ i => exact hfirst i (Nat.lt_of_succ_lt_succ hi) e he

/-- Entries are refused for the first bad one. -/
theorem ofEntries_eq_error_iff {entries : List Json} {start : Nat} {refusal : ListFault} :
    ofEntries start entries = .error refusal ↔
      ∃ index fault, FirstBad entries index fault ∧ refusal = .entry (start + index) fault := by
  induction entries generalizing start with
  | nil =>
    constructor
    · rintro ⟨⟩
    · rintro ⟨index, fault, ⟨⟨entry, he, -⟩, -⟩, -⟩
      cases he
  | cons entry entries ih =>
    cases hentry : ofEntry entry with
    | error fault =>
      have hbad := bad_of_ofEntry hentry
      simp only [ofEntries, hentry, Except.error.injEq]
      constructor
      · rintro rfl
        exact ⟨0, fault, firstBad_zero_iff.2 hbad, rfl⟩
      · rintro ⟨_ | index, fault', hfirst, rfl⟩
        · have hfault := ofEntry_of_bad (firstBad_zero_iff.1 hfirst)
          rw [hentry, Except.error.injEq] at hfault
          rw [hfault, Nat.add_zero]
        · exact absurd hbad ((firstBad_succ_iff.1 hfirst).1 fault)
    | ok r =>
      have hentry' : ∀ fault, ¬Bad entry fault := by
        intro fault hbad
        rw [ofEntry_of_bad hbad] at hentry
        cases hentry
      have hrest : ofEntries start (entry :: entries) = .error refusal ↔
          ofEntries (start + 1) entries = .error refusal := by
        simp only [ofEntries, hentry]
        cases ofEntries (start + 1) entries <;> simp
      rw [hrest, ih]
      constructor
      · rintro ⟨index, fault, hfirst, rfl⟩
        refine ⟨index + 1, fault, firstBad_succ_iff.2 ⟨hentry', hfirst⟩, ?_⟩
        rw [Nat.add_right_comm, Nat.add_assoc]
      · rintro ⟨_ | index, fault, hfirst, rfl⟩
        · exact absurd (firstBad_zero_iff.1 hfirst) (hentry' fault)
        · refine ⟨index, fault, (firstBad_succ_iff.1 hfirst).2, ?_⟩
          rw [Nat.add_right_comm, Nat.add_assoc]

/-- The entries of a change list. -/
inductive Lists : Json → List Json → Prop
  /-- The list is an array of them. -/
  | array {entries : List Json} : Lists (.array entries) entries
  /-- The list is an object with an array of them under `files`. -/
  | files {members : List (String × Json)} {entries : List Json} :
      (Json.object members).member? "files" = some (.array entries) →
      Lists (.object members) entries

theorem ofList_of_lists {value : Json} {entries : List Json} (h : Lists value entries) :
    ofList value = ofEntries 0 entries := by
  cases h with
  | array => rfl
  | files h => simp only [ofList, h]

/-- What is wrong with a value that is no change list. -/
inductive Refuses : Json → ListFault → Prop
  /-- It is neither an array nor an object. -/
  | badShape {value : Json} : (∀ entries, value ≠ .array entries) →
      (∀ members, value ≠ .object members) → Refuses value .badShape
  /-- It is an object with nothing under `files`. -/
  | noFiles {members : List (String × Json)} :
      (Json.object members).member? "files" = none → Refuses (.object members) .noFiles
  /-- It is an object with something else than an array under `files`. -/
  | badFiles {members : List (String × Json)} {value : Json} :
      (Json.object members).member? "files" = some value → (∀ entries, value ≠ .array entries) →
      Refuses (.object members) .badFiles
  /-- It has a bad entry. -/
  | entry {value : Json} {entries : List Json} {index : Nat} {fault : EntryFault} :
      Lists value entries → FirstBad entries index fault → Refuses value (.entry index fault)

theorem ofList_of_refuses {value : Json} {refusal : ListFault} (h : Refuses value refusal) :
    ofList value = .error refusal := by
  cases h with
  | badShape harray hobject =>
    cases value with
    | array entries => exact absurd rfl (harray entries)
    | object members => exact absurd rfl (hobject members)
    | _ => rfl
  | noFiles hfiles => simp only [ofList, hfiles]
  | badFiles hfiles harray => simp only [ofList, hfiles]
  | entry hlists hfirst =>
    rw [ofList_of_lists hlists, ofEntries_eq_error_iff]
    exact ⟨_, _, hfirst, by rw [Nat.zero_add]⟩

/-- A value has entries, or it is refused without any. -/
theorem exists_lists_or_refuses (value : Json) :
    (∃ entries, Lists value entries) ∨ ∃ refusal, Refuses value refusal := by
  cases value with
  | array entries => exact .inl ⟨entries, .array⟩
  | object members =>
    cases hfiles : (Json.object members).member? "files" with
    | none => exact .inr ⟨_, .noFiles hfiles⟩
    | some value =>
      cases value with
      | array entries => exact .inl ⟨entries, .files hfiles⟩
      | _ => exact .inr ⟨_, .badFiles hfiles (by simp)⟩
  | _ => exact .inr ⟨_, .badShape (by simp) (by simp)⟩

theorem ofList_eq_error_iff {value : Json} {refusal : ListFault} :
    ofList value = .error refusal ↔ Refuses value refusal := by
  refine ⟨fun h ↦ ?_, ofList_of_refuses⟩
  rcases exists_lists_or_refuses value with ⟨entries, hlists⟩ | ⟨other, hrefuses⟩
  · rw [ofList_of_lists hlists, ofEntries_eq_error_iff] at h
    obtain ⟨index, fault, hfirst, rfl⟩ := h
    rw [Nat.zero_add]
    exact .entry hlists hfirst
  · have hother := ofList_of_refuses hrefuses
    rw [h, Except.error.injEq] at hother
    exact hother ▸ hrefuses

/-- The files that are read from a list are those of its entries, one by one. -/
theorem exists_lists_of_ofList {value : Json} {records : List DiffRecord}
    (h : ofList value = .ok records) : ∃ entries, Lists value entries ∧
      List.Forall₂ (fun entry r ↦ ofEntry entry = .ok r) entries records := by
  rcases exists_lists_or_refuses value with ⟨entries, hlists⟩ | ⟨other, hrefuses⟩
  · rw [ofList_of_lists hlists] at h
    exact ⟨entries, hlists, forall₂_of_ofEntries h⟩
  · rw [ofList_of_refuses hrefuses] at h
    cases h

theorem not_mem_keys_of_ofList {value : Json} {records : List DiffRecord}
    (h : ofList value = .ok records) : ∀ r ∈ records, "path" ∉ r.info.keys := by
  obtain ⟨entries, -, hentries⟩ := exists_lists_of_ofList h
  clear h
  induction hentries with
  | nil => exact fun r hr ↦ absurd hr List.not_mem_nil
  | cons hentry _ ih => exact List.forall_mem_cons.2 ⟨not_mem_keys_of_ofEntry hentry, ih⟩

/-! ## The round trips -/

theorem writes_toJson (h : "path" ∉ r.info.keys) : Writes r r.toJson := .path ⟨.refl _, h⟩

/-- A record as JSON is read back, in whatever order its members come. -/
theorem ofJson?_of_perm (h : "path" ∉ r.info.keys) {members : List (String × Json)}
    (hmembers : members.Perm (("path", .string r.path) :: r.info.entries)) :
    ofJson? (.object members) = some r := by
  have hbeside : Json.Beside members "path" (.string r.path) r.info := ⟨hmembers, h⟩
  rw [← toOption_ofEntry (by rw [hbeside.member?]; rfl), ofEntry_of_writes (.path hbeside)]
  rfl

theorem toJson_encodes {records : List DiffRecord} (h : ∀ r ∈ records, "path" ∉ r.info.keys) :
    ofList (.array (records.map toJson)) = .ok records ∧
      (records.map toJson).mapM ofJson? = some records := by
  have hwrites : List.Forall₂ Writes records (records.map toJson) :=
    List.forall₂_map_right_iff.2 (List.forall₂_same.2 fun r hr ↦ writes_toJson (h r hr))
  exact ⟨ofEntries_of_writes hwrites 0,
    Json.mapM_map_of_leftInverse fun r hr ↦ ofJson?_of_perm (h r hr) (.refl _)⟩

/-- How change lists are read. -/
structure Decoding : Prop where
  /-- Changed files are read back from a list of them, whichever way each of them is written, and
  whatever else the list stands beside. -/
  reads : ∀ (records : List DiffRecord) (entries : List Json) (value : Json),
    List.Forall₂ Writes records entries → Lists value entries → ofList value = .ok records
  /-- So they are read back from their encodings, by either reader. -/
  encoded : ∀ records : List DiffRecord, (∀ r ∈ records, "path" ∉ r.info.keys) →
    ofList (.array (records.map toJson)) = .ok records ∧
      (records.map toJson).mapM ofJson? = some records
  /-- The order of the members of an encoding does not count. -/
  perm : ∀ r : DiffRecord, "path" ∉ r.info.keys → ∀ members : List (String × Json),
    members.Perm (("path", .string r.path) :: r.info.entries) →
    ofEntry (.object members) = .ok r ∧ ofJson? (.object members) = some r
  /-- Nothing that is read is said under `path`, so it can be written out and read again. -/
  again : ∀ (value : Json) (records : List DiffRecord), ofList value = .ok records →
    (∀ r ∈ records, "path" ∉ r.info.keys) ∧
      ofList (.array (records.map toJson)) = .ok records ∧
      (records.map toJson).mapM ofJson? = some records
  /-- The two readers agree on every object with a `path`. -/
  agree : ∀ entry : Json, (entry.member? "path").isSome = true →
    (ofEntry entry).toOption = ofJson? entry
  /-- All other values are refused as a whole, for their shape or for their first bad entry. -/
  refuses : ∀ (value : Json) (refusal : ListFault),
    ofList value = .error refusal ↔ Refuses value refusal
  /-- A bad entry is named by its index. -/
  names : ∀ (value : Json) (entries : List Json) (index : Nat) (fault : EntryFault),
    Lists value entries → FirstBad entries index fault → ∃ refusal : ListFault,
      ofList value = .error refusal ∧
        refusal.message = "entry " ++ toString index ++ ": " ++ fault.message

theorem decoding : Decoding where
  reads records entries value hentries hlists := by
    rw [ofList_of_lists hlists, ofEntries_of_writes hentries]
  encoded _ := toJson_encodes
  perm r h members hmembers :=
    ⟨ofEntry_of_writes (.path ⟨hmembers, h⟩), ofJson?_of_perm h hmembers⟩
  again value records h :=
    ⟨not_mem_keys_of_ofList h, toJson_encodes (not_mem_keys_of_ofList h)⟩
  agree _ := toOption_ofEntry
  refuses _ _ := ofList_eq_error_iff
  names value entries index fault hlists hfirst :=
    ⟨_, ofList_of_refuses (.entry hlists hfirst), rfl⟩

example : ofList (.array [.string "a.js", .object [("file", .null)], .null]) =
    .error (.entry 1 .badPath) := rfl

end DiffRecord
end ImpactGraph
