import ImpactGraph.Change.Git
import ImpactGraph.Proofs.SortedMap
import ImpactGraph.Proofs.Text.Cut
import Mathlib.Data.Set.List

/-!
# Where the entries of a listing start and end

Git writes an `Entry` for each file: a status and a path, with the old path between them exactly
where the status starts with `R` or `C`.  A listing is one stream of fields, and nothing but the
statuses says how many paths follow, so that a field is a status or a path by its place alone.

`ofFields_append` reads one entry off the front of a stream, whatever its fields hold.  Any stream
is entries one after the other, up to the front of one that is cut off (`listed`); so a listing that
is cut between two fields is read exactly if it is cut between two entries.
-/

set_option autoImplicit false

namespace ImpactGraph
namespace NameStatus

/-! ## What git writes -/

/-- A field as git writes it. -/
structure Field where
  /-- The characters of the field. -/
  text : List Char
  /-- No field is empty. -/
  ne_nil : text ≠ []
  /-- No field holds the character that ends it. -/
  not_mem : '\x00' ∉ text

/-- The letter that a field starts with. -/
def Field.letter (field : Field) : Char := field.text.head field.ne_nil

/-- What git writes of one file. -/
structure Entry where
  /-- The status of the file. -/
  status : Field
  /-- The old path, if the file has one. -/
  origin : Option Field
  /-- The path. -/
  path : Field
  /-- Renamed and copied files have an old path, and no others. -/
  isSome_origin_iff : origin.isSome = true ↔ status.letter = 'R' ∨ status.letter = 'C'

/-- The fields of an entry. -/
def Entry.fields (e : Entry) : List Field := e.status :: (e.origin.toList ++ [e.path])

/-- Fields as a listing, each with a NUL after it. -/
def listing (fs : List Field) : List Char := fs.flatMap fun field ↦ field.text ++ ['\x00']

/-- What a letter says of a file. -/
inductive IsType : Char → String → Prop
  | added : IsType 'A' "added"
  | modified : IsType 'M' "modified"
  | deleted : IsType 'D' "deleted"
  | renamed : IsType 'R' "renamed"
  | copied : IsType 'C' "copied"
  | typeChanged : IsType 'T' "type_changed"
  | unmerged : IsType 'U' "unmerged"
  | unknown {letter : Char} : letter ∉ ['A', 'M', 'D', 'R', 'C', 'T', 'U'] →
      IsType letter "unknown"

/-- A record says of an entry its path, the type of its letter, the old path if there is one, and
nothing else. -/
structure Records (e : Entry) (r : DiffRecord) : Prop where
  path_eq : r.path = String.ofList e.path.text
  type : ∃ type, IsType e.status.letter type ∧ r.info.get? "type" = some (.string type)
  origin : r.info.get? "from" = e.origin.map fun field ↦ .string (String.ofList field.text)
  others : ∀ name, name ≠ "type" → name ≠ "from" → r.info.get? name = none

/-! ## Fields of a listing -/

theorem fields_append {word : List Char} (hne : word ≠ []) (hword : '\x00' ∉ word)
    (text : List Char) : fields (word ++ '\x00' :: text) = word :: fields text := by
  rw [fields, List.splitOn_append_cons_self, List.splitOn_eq_singleton hword, List.singleton_append,
    List.filter_cons_of_pos (by simpa using hne), fields]

theorem fields_listing (fs : List Field) : fields (listing fs) = fs.map Field.text := by
  induction fs with
  | nil => rfl
  | cons field fs ih =>
    have hlisting : listing (field :: fs) = field.text ++ '\x00' :: listing fs := by simp [listing]
    rw [hlisting, fields_append field.ne_nil field.not_mem, ih, List.map_cons]

/-- The NUL after the last field does not count. -/
theorem fields_concat (text : List Char) : fields (text ++ ['\x00']) = fields text := by
  rw [fields, List.splitOn_append_cons_self, List.filter_append, fields]
  simp

/-- Whatever a text holds, its fields are fields as git writes them. -/
theorem exists_fields (text : List Char) : ∃ fs : List Field, fields text = fs.map Field.text := by
  have hfield : ∀ word ∈ fields text, word ∈ Set.range Field.text := by
    intro word hword
    obtain ⟨hmem, hne⟩ := List.mem_filter.1 hword
    exact ⟨⟨word, by simpa using hne, Text.not_mem_of_mem_splitOn hmem⟩, rfl⟩
  obtain ⟨fs, hfs⟩ := (Set.range_list_map Field.text).ge hfield
  exact ⟨fs, hfs.symm⟩

/-! ## One entry -/

section

variable {e : Entry} {fs : List Field}

theorem hasOrigin_iff {letter : Char} : hasOrigin letter = true ↔ letter = 'R' ∨ letter = 'C' := by
  simp [hasOrigin]

theorem Entry.hasOrigin_letter (e : Entry) : hasOrigin e.status.letter = e.origin.isSome := by
  rw [Bool.eq_iff_iff, hasOrigin_iff, e.isSome_origin_iff]

theorem isType_iff {letter : Char} {type : String} :
    IsType letter type ↔ type = changeType letter := by
  constructor
  · rintro (_ | _ | _ | _ | _ | _ | _ | hletter)
    case unknown => simp_all [changeType]
    all_goals rfl
  · rintro rfl
    unfold changeType
    split <;> constructor
    simp_all

/-- The record of an entry. -/
def Entry.record (e : Entry) : DiffRecord :=
  match e.origin with
  | none => NameStatus.record e.status.letter e.path.text
  | some origin =>
    (NameStatus.record e.status.letter e.path.text).set "from" (.string (String.ofList origin.text))

theorem get?_record (letter : Char) (path : List Char) (name : String) :
    (record letter path).info.get? name =
      if compare name "type" = .eq then some (.string (changeType letter)) else none :=
  SortedMap.get?_insert

theorem records_record (e : Entry) : Records e e.record := by
  have hpath : e.record.path = String.ofList e.path.text := by
    rw [Entry.record]
    cases e.origin <;> rfl
  have hinfo : ∀ name, e.record.info.get? name =
      if name = "from" ∧ e.origin.isSome then
        e.origin.map fun field ↦ .string (String.ofList field.text)
      else if name = "type" then some (.string (changeType e.status.letter)) else none := by
    intro name
    rw [Entry.record]
    cases e.origin with
    | none => simp [get?_record]
    | some origin =>
      have hget : ((record e.status.letter e.path.text).set "from"
          (.string (String.ofList origin.text))).info.get? name =
            if compare name "from" = .eq then some (.string (String.ofList origin.text))
            else (record e.status.letter e.path.text).info.get? name := SortedMap.get?_insert
      simp [hget, get?_record]
  refine ⟨hpath, ⟨_, isType_iff.2 rfl, ?_⟩, ?_, fun name htype hfrom ↦ ?_⟩
  · simp [hinfo]
  · cases horigin : e.origin <;> simp [hinfo, horigin]
  · simp [hinfo, htype, hfrom]

theorem Records.unique {r r' : DiffRecord} (h : Records e r) (h' : Records e r') : r = r' := by
  obtain ⟨type, htype, hget⟩ := h.type
  obtain ⟨type', htype', hget'⟩ := h'.type
  rw [isType_iff] at htype htype'
  have hinfo : r.info = r'.info := by
    refine SortedMap.ext_get? fun name ↦ ?_
    by_cases hname : name = "type"
    · rw [hname, hget, hget', htype, htype']
    · by_cases hfrom : name = "from"
      · rw [hfrom, h.origin, h'.origin]
      · rw [h.others name hname hfrom, h'.others name hname hfrom]
  have hpath : r.path = r'.path := h.path_eq.trans h'.path_eq.symm
  cases r
  cases r'
  simp_all

theorem Field.exists_text (field : Field) : ∃ more, field.text = field.letter :: more :=
  ⟨_, (List.cons_head_tail field.ne_nil).symm⟩

section

variable {status : Field} (path origin : List Char) (rest : List (List Char))

theorem ofFields_plain (h : hasOrigin status.letter = false) :
    ofFields (status.text :: path :: rest) =
      (ofFields rest).map (record status.letter path :: ·) := by
  obtain ⟨more, htext⟩ := status.exists_text
  rw [htext, ofFields.eq_def]
  simp [h]

theorem ofFields_moved (h : hasOrigin status.letter = true) :
    ofFields (status.text :: origin :: path :: rest) = (ofFields rest).map
      ((record status.letter path).set "from" (.string (String.ofList origin)) :: ·) := by
  obtain ⟨more, htext⟩ := status.exists_text
  rw [htext, ofFields.eq_def]
  simp [h]

theorem ofFields_status (status : Field) :
    ofFields [status.text] = .error (.missingPath (String.ofList status.text)) := by
  obtain ⟨more, htext⟩ := status.exists_text
  rw [htext, ofFields.eq_def]
  simp

theorem ofFields_origin (h : hasOrigin status.letter = true) :
    ofFields [status.text, origin] = .error (.missingPath (String.ofList status.text)) := by
  obtain ⟨more, htext⟩ := status.exists_text
  rw [htext, ofFields.eq_def]
  simp [h]

end

/-- An entry in front of other fields is read as an entry, whatever its fields hold. -/
theorem ofFields_append (e : Entry) (fs : List Field) :
    ofFields ((e.fields ++ fs).map Field.text) =
      (ofFields (fs.map Field.text)).map (e.record :: ·) := by
  have hletter := e.hasOrigin_letter
  rw [Entry.fields, Entry.record]
  cases horigin : e.origin with
  | none =>
    rw [horigin] at hletter
    exact ofFields_plain _ _ hletter
  | some origin =>
    rw [horigin] at hletter
    exact ofFields_moved _ _ _ hletter

/-- The front of an entry that is cut off within it. -/
structure Torn (e : Entry) (fs : List Field) : Prop where
  ne_nil : fs ≠ []
  isPrefix : fs <+: e.fields
  ne_fields : fs ≠ e.fields

theorem torn_iff : Torn e fs ↔ ∃ paths, fs = e.status :: paths ∧ paths <+: e.origin.toList := by
  constructor
  · rintro ⟨hne, hprefix, hfields⟩
    obtain ⟨field, paths, rfl⟩ := List.exists_cons_of_ne_nil hne
    rw [Entry.fields, List.cons_prefix_cons, List.prefix_concat_iff] at hprefix
    obtain ⟨rfl, rfl | hpaths⟩ := hprefix
    · exact absurd rfl hfields
    · exact ⟨paths, rfl, hpaths⟩
  · rintro ⟨paths, rfl, hpaths⟩
    refine ⟨List.cons_ne_nil _ _, ?_, fun hfields ↦ ?_⟩
    · exact List.cons_prefix_cons.2 ⟨rfl, hpaths.trans (List.prefix_append _ _)⟩
    · -- the last path is missing
      have hlength := congrArg List.length hfields
      have hle := hpaths.length_le
      simp [Entry.fields] at hlength
      omega

theorem ofFields_torn (h : Torn e fs) :
    ofFields (fs.map Field.text) = .error (.missingPath (String.ofList e.status.text)) := by
  obtain ⟨paths, rfl, hpaths⟩ := torn_iff.1 h
  have hletter := e.hasOrigin_letter
  cases paths with
  | nil => exact ofFields_status e.status
  | cons field paths =>
    cases horigin : e.origin with
    | none => simp [horigin] at hpaths
    | some origin =>
      rw [horigin] at hpaths hletter
      obtain ⟨rfl, hnil⟩ := List.cons_prefix_cons.1 hpaths
      obtain rfl := List.prefix_nil.1 hnil
      exact ofFields_origin _ hletter

end

/-! ## All entries -/

section

variable {es before : List Entry} {fs front : List Field}

/-- Entries are read one after the other. -/
theorem ofFields_flatMap_append (es : List Entry) (fs : List Field) :
    ofFields ((es.flatMap Entry.fields ++ fs).map Field.text) =
      (ofFields (fs.map Field.text)).map (es.map Entry.record ++ ·) := by
  induction es with
  | nil =>
    simp only [List.flatMap_nil, List.nil_append, List.map_nil]
    cases ofFields (fs.map Field.text) <;> rfl
  | cons e es ih =>
    rw [List.flatMap_cons, List.append_assoc, ofFields_append, ih]
    cases ofFields (fs.map Field.text) <;> rfl

theorem ofFields_flatMap (es : List Entry) :
    ofFields ((es.flatMap Entry.fields).map Field.text) = .ok (es.map Entry.record) := by
  have h := ofFields_flatMap_append es []
  rw [List.append_nil] at h
  rw [h]
  simp [ofFields, Except.map]

theorem ofFields_flatMap_torn {e : Entry} (h : Torn e fs) :
    ofFields ((es.flatMap Entry.fields ++ fs).map Field.text) =
      .error (.missingPath (String.ofList e.status.text)) := by
  rw [ofFields_flatMap_append, ofFields_torn h]
  rfl

theorem forall₂_records_iff {records : List DiffRecord} :
    List.Forall₂ Records es records ↔ records = es.map Entry.record := by
  constructor
  · intro h
    induction h with
    | nil => rfl
    | cons hr _ ih => rw [List.map_cons, hr.unique (records_record _), ih]
  · rintro rfl
    exact List.forall₂_map_right_iff.2 (List.forall₂_same.2 fun e _ ↦ records_record e)

/-- A front of entries ends between two of them, or within one. -/
theorem exists_before (h : front <+: es.flatMap Entry.fields) :
    (∃ before, before <+: es ∧ front = before.flatMap Entry.fields) ∨
      ∃ before e torn, before ++ [e] <+: es ∧ Torn e torn ∧
        front = before.flatMap Entry.fields ++ torn := by
  induction es generalizing front with
  | nil => exact .inl ⟨[], List.nil_prefix, by simpa using h⟩
  | cons e es ih =>
    rw [List.flatMap_cons] at h
    rcases List.prefix_or_prefix_of_prefix h (List.prefix_append _ _) with hfront | ⟨more, rfl⟩
    · by_cases hnil : front = []
      · exact .inl ⟨[], List.nil_prefix, hnil⟩
      · by_cases hall : front = e.fields
        · exact .inl ⟨[e], by simp, by simpa using hall⟩
        · exact .inr ⟨[], e, front, by simp, ⟨hnil, hfront, hall⟩, rfl⟩
    · rw [List.prefix_append_right_inj] at h
      rcases ih h with ⟨before, hbefore, rfl⟩ | ⟨before, last, torn, hbefore, htorn, rfl⟩
      · exact .inl ⟨e :: before, List.cons_prefix_cons.2 ⟨rfl, hbefore⟩, rfl⟩
      · refine .inr ⟨e :: before, last, torn, ?_, htorn, ?_⟩
        · exact List.cons_prefix_cons.2 ⟨rfl, hbefore⟩
        · rw [List.flatMap_cons, List.append_assoc]

/-- Fields that are entries one after the other, up to the front of one that is cut off. -/
def Listed (fs : List Field) : Prop := ∃ (es : List Entry) (front : List Field),
  fs = es.flatMap Entry.fields ++ front ∧ (front = [] ∨ ∃ e, Torn e front)

theorem Listed.append (e : Entry) : Listed fs → Listed (e.fields ++ fs) := by
  rintro ⟨es, front, rfl, hfront⟩
  exact ⟨e :: es, front, by simp, hfront⟩

theorem Torn.listed {e : Entry} (h : Torn e fs) : Listed fs := ⟨[], fs, rfl, .inr ⟨e, h⟩⟩

/-- Any fields are listed: each status takes its paths, as long as there are some. -/
theorem listed : (fs : List Field) → Listed fs
  | [] => ⟨[], [], rfl, .inl rfl⟩
  | status :: rest => by
    by_cases hletter : status.letter = 'R' ∨ status.letter = 'C'
    · have hentry (origin path : Field) : ∃ e : Entry, e.fields = [status, origin, path] :=
        ⟨⟨status, some origin, path, by simp [hletter]⟩, rfl⟩
      match rest with
      | [] =>
        obtain ⟨e, he⟩ := hentry status status
        exact Torn.listed (e := e) ⟨by simp, by simp [he], by simp [he]⟩
      | [origin] =>
        obtain ⟨e, he⟩ := hentry origin status
        exact Torn.listed (e := e) ⟨by simp, by simp [he], by simp [he]⟩
      | origin :: path :: rest =>
        obtain ⟨e, he⟩ := hentry origin path
        have hlisted := (listed rest).append e
        rwa [he] at hlisted
    · have hentry (path : Field) : ∃ e : Entry, e.fields = [status, path] :=
        ⟨⟨status, none, path, by simp [hletter]⟩, rfl⟩
      match rest with
      | [] =>
        obtain ⟨e, he⟩ := hentry status
        exact Torn.listed (e := e) ⟨by simp, by simp [he], by simp [he]⟩
      | path :: rest =>
        obtain ⟨e, he⟩ := hentry path
        have hlisted := (listed rest).append e
        rwa [he] at hlisted

end

/-! ## The whole listing -/

/-- A text is the listing of fields, with or without the NUL after the last one. -/
def IsListing (fs : List Field) (text : String) : Prop :=
  text.toList = listing fs ∨ text.toList ++ ['\x00'] = listing fs

theorem IsListing.fields_eq {fs : List Field} {text : String} (h : IsListing fs text) :
    fields text.toList = fs.map Field.text := by
  rcases h with h | h
  · rw [h, fields_listing]
  · rw [← fields_concat, h, fields_listing]

/-- The text of entries as git writes it. -/
def text (es : List Entry) : String := String.ofList (listing (es.flatMap Entry.fields))

/-- How listings are framed. -/
structure Framing : Prop where
  /-- What git writes is read back: one record for each entry, in their order. -/
  reads : ∀ es : List Entry, ∃ records,
    parse (text es) = .ok records ∧ List.Forall₂ Records es records
  /-- A listing that is cut between two fields is read exactly if it is cut between two entries;
  then the entries before the cut are read. -/
  cut_iff : ∀ (es : List Entry) (front : List Field) (cut : String),
    front <+: es.flatMap Entry.fields → IsListing front cut →
    ∀ records, parse cut = .ok records ↔
      ∃ before, before <+: es ∧ front = before.flatMap Entry.fields ∧
        List.Forall₂ Records before records
  /-- If it is cut within an entry, git's output is refused for want of a path of this entry. -/
  torn : ∀ (es : List Entry) (front : List Field) (cut : String),
    front <+: es.flatMap Entry.fields → IsListing front cut →
    (∀ before, before <+: es → front ≠ before.flatMap Entry.fields) →
    ∃ before e torn, before ++ [e] <+: es ∧ Torn e torn ∧
      front = before.flatMap Entry.fields ++ torn ∧
      ∀ (range : GitRange) (errors : String), range.recordsOf ⟨true, cut, errors⟩ =
        .error (.gitListing ("missing path after '" ++ String.ofList e.status.text ++ "'"))
  /-- Whatever is read, it is read as entries, so that no path is taken for a status. -/
  framed : ∀ (any : String) (records : List DiffRecord), parse any = .ok records →
    ∃ es : List Entry, fields any.toList = (es.flatMap Entry.fields).map Field.text ∧
      List.Forall₂ Records es records
  /-- Whatever is refused, it ends within an entry. -/
  refused : ∀ (any : String) (fault : Fault), parse any = .error fault →
    ∃ (es : List Entry) (e : Entry) (torn : List Field), Torn e torn ∧
      fields any.toList = (es.flatMap Entry.fields ++ torn).map Field.text ∧
      fault = .missingPath (String.ofList e.status.text)
  /-- No status is empty. -/
  status : ∀ any : String, parse any ≠ .error .emptyStatus

theorem parse_of_fields_eq {any : String} {fs : List Field}
    (h : fields any.toList = fs.map Field.text) : parse any = ofFields (fs.map Field.text) := by
  rw [parse, h]

theorem exists_of_parse (any : String) :
    (∃ es : List Entry, fields any.toList = (es.flatMap Entry.fields).map Field.text ∧
        parse any = .ok (es.map Entry.record)) ∨
      ∃ (es : List Entry) (e : Entry) (torn : List Field), Torn e torn ∧
        fields any.toList = (es.flatMap Entry.fields ++ torn).map Field.text ∧
        parse any = .error (.missingPath (String.ofList e.status.text)) := by
  obtain ⟨fs, hfs⟩ := exists_fields any.toList
  obtain ⟨es, front, rfl, rfl | ⟨e, htorn⟩⟩ := listed fs
  · rw [List.append_nil] at hfs
    exact .inl ⟨es, hfs, (parse_of_fields_eq hfs).trans (ofFields_flatMap es)⟩
  · exact .inr ⟨es, e, front, htorn, hfs,
      (parse_of_fields_eq hfs).trans (ofFields_flatMap_torn htorn)⟩

theorem exists_torn_of_error {any : String} {fault : Fault} (h : parse any = .error fault) :
    ∃ (es : List Entry) (e : Entry) (torn : List Field), Torn e torn ∧
      fields any.toList = (es.flatMap Entry.fields ++ torn).map Field.text ∧
      fault = .missingPath (String.ofList e.status.text) := by
  rcases exists_of_parse any with ⟨es, -, hparse⟩ | ⟨es, e, torn, htorn, hfields, hparse⟩
  · rw [h] at hparse
    cases hparse
  · rw [h, Except.error.injEq] at hparse
    exact ⟨es, e, torn, htorn, hfields, hparse⟩

/-- A listing that cannot be read is reported with the text of its fault. -/
theorem recordsOf_of_error {cut : String} {fault : Fault} (h : parse cut = .error fault)
    (range : GitRange) (errors : String) :
    range.recordsOf ⟨true, cut, errors⟩ = .error (.gitListing fault.message) := by
  simp only [GitRange.recordsOf, if_true, h]

theorem framing : Framing where
  reads es := by
    have hlisting : IsListing (es.flatMap Entry.fields) (text es) := .inl String.toList_ofList
    refine ⟨es.map Entry.record, ?_, forall₂_records_iff.2 rfl⟩
    rw [parse_of_fields_eq hlisting.fields_eq, ofFields_flatMap]
  cut_iff es front cut hfront hcut records := by
    rw [parse_of_fields_eq hcut.fields_eq]
    constructor
    · intro h
      rcases exists_before hfront with ⟨before, hbefore, rfl⟩ | ⟨before, e, torn, -, htorn, rfl⟩
      · rw [ofFields_flatMap, Except.ok.injEq] at h
        exact ⟨before, hbefore, rfl, forall₂_records_iff.2 h.symm⟩
      · rw [ofFields_flatMap_torn htorn] at h
        cases h
    · rintro ⟨before, -, rfl, hrecords⟩
      rw [ofFields_flatMap, forall₂_records_iff.1 hrecords]
  torn es front cut hfront hcut hbetween := by
    rcases exists_before hfront with ⟨before, hbefore, heq⟩ | ⟨before, e, torn, he, htorn, rfl⟩
    · exact absurd heq (hbetween before hbefore)
    · refine ⟨before, e, torn, he, htorn, rfl, fun range errors ↦ ?_⟩
      have hparse := (parse_of_fields_eq hcut.fields_eq).trans (ofFields_flatMap_torn htorn)
      exact recordsOf_of_error hparse range errors
  framed any records h := by
    rcases exists_of_parse any with ⟨es, hfields, hparse⟩ | ⟨es, e, torn, -, -, hparse⟩
    · rw [h, Except.ok.injEq] at hparse
      exact ⟨es, hfields, forall₂_records_iff.2 hparse⟩
    · rw [h] at hparse
      cases hparse
  refused _ _ := exists_torn_of_error
  status any h := by
    obtain ⟨_, _, _, _, _, hfault⟩ := exists_torn_of_error h
    exact Fault.noConfusion hfault

/-! A path may look like a status. -/

example : ((parse "M\x00R100\x00C075\x00D\x00M\x00").toOption.getD []).map
    (fun r ↦ (r.path, r.info.keys)) = [("R100", ["type"]), ("M", ["from", "type"])] := by
  decide +kernel

end NameStatus
end ImpactGraph
