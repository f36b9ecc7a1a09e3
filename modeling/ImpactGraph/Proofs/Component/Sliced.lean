import ImpactGraph.Proofs.Component.Script
import ImpactGraph.Proofs.Text.Bytes

/-!
# Reading a component by byte offsets

`scripts` walks along the characters of a source.  The same reading can be done by byte offsets
into it, with searches among the bytes and with slices of the text.  Then each slice may be out of
place: behind the end of the text, or inside a character.  `scriptsBySlices?` is that reading.  All
its slices and look-ups are checked, and its result is `none` as soon as one of them fails.

Each reader is followed by the equation that makes it the reader by characters; in particular it
does not fail.  `scriptsBySlices?_eq` is the one for the whole reading.
-/

set_option autoImplicit false

namespace ImpactGraph
namespace Component

open Text

variable {source before text rest : List Char} {found : List Script} {c : Char}

/-! ## Searches among bytes -/

/-- The first place of `needle` at or behind a byte; the search may start at the end of the bytes,
but not behind it. -/
def findFrom? (bytes : List UInt8) (start : Nat) (needle : List UInt8) : Option (Option Nat) :=
  if start ≤ bytes.length then some ((indexOf? needle (bytes.drop start)).map (start + ·))
  else none

theorem findFrom?_utf8 {word : List Char} (hne : word ≠ []) (hword : ∀ c ∈ word, IsAscii c)
    (before text : List Char) :
    findFrom? (utf8 (before ++ text)) (utf8Length before) (utf8 word) =
      some ((cutAt word text).map fun (lead, _) ↦ utf8Length before + utf8Length lead) := by
  have hle : utf8Length before ≤ (utf8 (before ++ text)).length := by simp
  rw [findFrom?, if_pos hle, drop_utf8_append, indexOf?_utf8 hne hword, Option.map_map]
  rfl

/-- What is found lies behind the start of the search and before the end of the bytes. -/
theorem findFrom?_bounds {bytes needle : List UInt8} {start place : Nat}
    (h : findFrom? bytes start needle = some (some place)) :
    start ≤ place ∧ place + needle.length ≤ bytes.length := by
  rw [findFrom?] at h
  split at h
  · obtain ⟨n, hindex, rfl⟩ := Option.map_eq_some_iff.1 (Option.some.inj h)
    have := add_length_le_of_indexOf? hindex
    rw [List.length_drop] at this
    omega
  · cases h

/-- The quote that is open after a byte. -/
def byteQuoteStep (quote : Option UInt8) (byte : UInt8) : Option UInt8 :=
  match quote with
  | none => if byte = '"'.toUInt8 ∨ byte = '\''.toUInt8 then some byte else none
  | some q => if byte = q then none else some q

/-- The place of the first `>` outside quotes. -/
def angleIndex? (quote : Option UInt8) : List UInt8 → Option Nat
  | [] => none
  | byte :: bytes =>
    if byte = '>'.toUInt8 ∧ quote = none then some 0
    else (angleIndex? (byteQuoteStep quote byte) bytes).map (· + 1)

/-- The place of the first `>` outside quotes at or behind a byte. -/
def angleFrom? (bytes : List UInt8) (start : Nat) : Option (Option Nat) :=
  if start ≤ bytes.length then some ((angleIndex? none (bytes.drop start)).map (start + ·))
  else none

theorem toUInt8_eq_iff {d : Char} (hd : IsAscii d) (hc : IsAscii c) :
    c.toUInt8 = d.toUInt8 ↔ c = d :=
  ⟨hc.toUInt8_inj hd, fun h ↦ h ▸ rfl⟩

theorem byteQuoteStep_toUInt8 {quote : Option Char} (hquote : ∀ q ∈ quote, IsAscii q)
    (hc : IsAscii c) : byteQuoteStep (quote.map Char.toUInt8) c.toUInt8 =
      (quoteStep quote c).map Char.toUInt8 := by
  cases quote with
  | none =>
    simp only [Option.map_none, byteQuoteStep, quoteStep,
      toUInt8_eq_iff (d := '"') (by decide) hc, toUInt8_eq_iff (d := '\'') (by decide) hc,
      Bool.or_eq_true, decide_eq_true_eq]
    split <;> rfl
  | some q =>
    simp only [Option.map_some, byteQuoteStep, quoteStep, toUInt8_eq_iff (hquote q rfl) hc]
    split <;> rfl

theorem isAscii_quoteStep {quote : Option Char} (hquote : ∀ q ∈ quote, IsAscii q) :
    ∀ q ∈ quoteStep quote c, IsAscii q := by
  cases quote with
  | none =>
    rw [quoteStep]
    split
    · next h =>
      rintro q ⟨⟩
      rw [Bool.or_eq_true, decide_eq_true_eq, decide_eq_true_eq] at h
      rcases h with rfl | rfl <;> decide
    · rintro q ⟨⟩
  | some p =>
    rw [quoteStep]
    split
    · rintro q ⟨⟩
    · exact hquote

theorem quoteStep_of_not_isAscii {quote : Option Char} (hquote : ∀ q ∈ quote, IsAscii q)
    (hc : ¬IsAscii c) : quoteStep quote c = quote := by
  have hne {d : Char} (hd : IsAscii d) : c ≠ d := by
    rintro rfl
    exact hc hd
  cases quote with
  | none => simp [quoteStep, hne (d := '"') (by decide), hne (d := '\'') (by decide)]
  | some q => simp [quoteStep, hne (hquote q rfl)]

/-- Bytes above those of ASCII neither open nor close a quote, nor end the tag. -/
theorem angleIndex?_append {quote : Option Char} (hquote : ∀ q ∈ quote, IsAscii q)
    {bytes : List UInt8} (hbytes : ∀ byte ∈ bytes, 128 ≤ byte.toNat) (rest : List UInt8) :
    angleIndex? (quote.map Char.toUInt8) (bytes ++ rest) =
      (angleIndex? (quote.map Char.toUInt8) rest).map (bytes.length + ·) := by
  induction bytes with
  | nil => simp
  | cons byte bytes ih =>
    obtain ⟨hbyte, hbytes⟩ := List.forall_mem_cons.1 hbytes
    have hne {d : Char} (hd : IsAscii d) : byte ≠ d.toUInt8 := by
      rintro rfl
      have := hd.toNat_le
      rw [hd.toNat_toUInt8] at hbyte
      omega
    have hstep : byteQuoteStep (quote.map Char.toUInt8) byte = quote.map Char.toUInt8 := by
      cases quote with
      | none =>
        simp [byteQuoteStep, hne (d := '"') (by decide), hne (d := '\'') (by decide)]
      | some q => simp [byteQuoteStep, hne (hquote q rfl)]
    rw [List.cons_append, angleIndex?, if_neg fun h ↦ hne (by decide) h.1, hstep, ih hbytes,
      Option.map_map]
    refine congrArg (Option.map · _) (funext fun n ↦ ?_)
    simp only [Function.comp_apply, List.length_cons]
    omega

theorem angleIndex?_utf8 {quote : Option Char} (hquote : ∀ q ∈ quote, IsAscii q)
    (text : List Char) : angleIndex? (quote.map Char.toUInt8) (utf8 text) =
      (closingAngleFrom quote [] text).map fun (inside, _) ↦ utf8Length inside := by
  induction text generalizing quote with
  | nil => rfl
  | cons c text ih =>
    by_cases hc : IsAscii c
    · have hangle : (c.toUInt8 = '>'.toUInt8 ∧ quote.map Char.toUInt8 = none) ↔
          (c = '>' && quote.isNone) = true := by
        rw [toUInt8_eq_iff (by decide) hc, Bool.and_eq_true, decide_eq_true_eq,
          Option.isNone_iff_eq_none, Option.map_eq_none_iff]
      rw [utf8_cons, hc.utf8EncodeChar, List.singleton_append, angleIndex?, closingAngleFrom]
      simp only [hangle]
      split
      · rfl
      · rw [byteQuoteStep_toUInt8 hquote hc, ih (isAscii_quoteStep hquote),
          closingAngleFrom_eq_map _ [c], Option.map_map, Option.map_map]
        refine congrArg (Option.map · _) (funext fun cut ↦ ?_)
        obtain ⟨inside, after⟩ := cut
        have hsize : c.utf8Size = 1 := hc
        simp [hsize]
    · have hangle : (c = '>' && quote.isNone) = false := by
        rw [Bool.and_eq_false_iff]
        refine .inl (decide_eq_false ?_)
        rintro rfl
        exact hc (by decide)
      rw [utf8_cons, angleIndex?_append hquote fun byte ↦ le_of_mem_utf8EncodeChar hc, ih hquote,
        closingAngleFrom, hangle, if_neg Bool.false_ne_true, quoteStep_of_not_isAscii hquote hc,
        closingAngleFrom_eq_map _ [c], Option.map_map, Option.map_map, String.length_utf8EncodeChar]
      refine congrArg (Option.map · _) (funext fun cut ↦ ?_)
      obtain ⟨inside, after⟩ := cut
      simp [Nat.add_comm]

theorem utf8Length_reverse (text : List Char) : utf8Length text.reverse = utf8Length text := by
  induction text with
  | nil => rfl
  | cons c text ih => simp [ih, Nat.add_comm]

theorem angleFrom?_utf8 (before text : List Char) :
    angleFrom? (utf8 (before ++ text)) (utf8Length before) =
      some ((closingAngle? text).map fun (inside, _) ↦ utf8Length before + utf8Length inside) := by
  have hle : utf8Length before ≤ (utf8 (before ++ text)).length := by simp
  rw [angleFrom?, if_pos hle, drop_utf8_append, closingAngle?, Option.map_map]
  have hnone : ∀ q ∈ (none : Option Char), IsAscii q := by rintro q ⟨⟩
  have hindex := angleIndex?_utf8 hnone text
  rw [Option.map_none] at hindex
  rw [hindex, Option.map_map]
  simp only [Function.comp_def, utf8Length_reverse]

/-! ## Attributes by slices -/

/-- The name that starts a text, and what follows it.  The text is cut at the first character that
ends a name, and at the second byte if that is its first character. -/
def nameOf? (text : List Char) : Option (List Char × List Char) :=
  cutAtByte (max ((findChar? endsName text).getD (utf8Length text)) 1) text

/-- The value between the quote that starts a text and the next one, and what follows that.  Nothing
is left behind a value whose quote does not end. -/
def quotedOf? (quote : Char) (text : List Char) : Option (List Char × List Char) := do
  let quoted ← sliceFrom? 1 text
  let stop := ((findChar? (· == quote) quoted).map (· + 1)).getD (utf8Length text)
  let value ← slice? 1 stop text
  return (value, (sliceFrom? (stop + 1) text).getD [])

/-- The value that starts a text, and what follows it. -/
def valueOf? (text : List Char) : Option (List Char × List Char) :=
  match text.head?.filter fun c ↦ c = '"' || c = '\'' with
  | none => cutAtByte ((findChar? endsBareValue text).getD (utf8Length text)) text
  | some quote => quotedOf? quote text

/-- The attribute that starts a text, and what follows it. -/
def attributeOf? (text : List Char) : Option (Attribute × List Char) := do
  let (name, rest) ← nameOf? text
  match trimStart rest with
  | [] => return (⟨name, none⟩, rest)
  | sign :: after =>
    if sign = '=' then
      let (value, rest) ← valueOf? (trimStart after)
      return (⟨name, some value⟩, rest)
    else return (⟨name, none⟩, rest)

/-- A name is cut between two characters: what ends a name at its start is `=` or `>`. -/
theorem nameOf?_eq (hc : isGap c = false) (text : List Char) :
    nameOf? (c :: text) = some (takeName c text) := by
  rw [nameOf?, takeName, getD_findChar?]
  cases hends : endsName c with
  | true =>
    -- A blank or a slash is no name; so the character is one byte, and the cut is behind it.
    have hc : IsAscii c := by
      have hsign : c = '=' ∨ c = '>' := by
        simp_all [isGap, endsName]
      rcases hsign with rfl | rfl <;> decide
    rw [List.takeWhile_cons_of_neg (by simp [hends]), if_pos rfl, utf8Length_nil,
      cutAtByte_eq_some_iff]
    exact ⟨rfl, by simpa [IsAscii] using hc⟩
  | false =>
    have hmax : max (utf8Length ((c :: text).takeWhile (!endsName ·))) 1 =
        utf8Length ((c :: text).takeWhile (!endsName ·)) := by
      have := c.utf8Size_pos
      rw [List.takeWhile_cons_of_pos (by simp [hends]), utf8Length_cons]
      omega
    rw [hmax, cutAtByte_takeWhile, if_neg Bool.false_ne_true,
      List.takeWhile_cons_of_pos (by simp [hends]), List.dropWhile_cons_of_pos (by simp [hends])]

/-- Behind a quoted value the text is cut only where the quote ends. -/
theorem sliceFrom?_quoted (hc : utf8Length [c] = 1) (value tail : List Char)
    (htail : ∀ d ∈ tail.head?, d = c) :
    (sliceFrom? (utf8Length ([c] ++ value) + 1) ([c] ++ value ++ tail)).getD [] = tail.drop 1 := by
  cases tail with
  | nil =>
    rw [List.append_nil, sliceFrom?_of_lt (Nat.lt_succ_self _)]
    rfl
  | cons d tail =>
    obtain rfl := htail d rfl
    have hslice := sliceFrom?_append ([d] ++ value ++ [d]) tail
    rw [utf8Length_append _ [d], hc] at hslice
    rw [List.append_cons, hslice]
    rfl

theorem quotedOf?_eq (hc : utf8Length [c] = 1) (text : List Char) :
    quotedOf? c (c :: text) = some (text.takeWhile (· != c), (text.dropWhile (· != c)).drop 1) := by
  have hquoted : sliceFrom? 1 (c :: text) = some text := by
    rw [← hc]
    exact sliceFrom?_append [c] text
  have hstop : ((findChar? (· == c) text).map (· + 1)).getD (utf8Length (c :: text)) =
      utf8Length ([c] ++ text.takeWhile (· != c)) := by
    have hend : (findChar? (· == c) text).getD (utf8Length text) =
        utf8Length (text.takeWhile (· != c)) := getD_findChar? (· == c) text
    rw [utf8Length_append, hc, ← hend, ← List.singleton_append, utf8Length_append, hc]
    cases findChar? (· == c) text with
    | none => rfl
    | some n => exact Nat.add_comm n 1
  have htext : c :: text = [c] ++ text.takeWhile (· != c) ++ text.dropWhile (· != c) := by simp
  have hvalue : slice? 1 (utf8Length ([c] ++ text.takeWhile (· != c))) (c :: text) =
      some (text.takeWhile (· != c)) := by
    rw [utf8Length_append, ← hc]
    exact slice?_of_append htext.symm
  have htail : ∀ d ∈ (text.dropWhile (· != c)).head?, d = c := by
    intro d hd
    have hstops := List.head?_dropWhile_not (· != c) text
    rw [hd] at hstops
    simpa using hstops
  have hafter := sliceFrom?_quoted hc (text.takeWhile (· != c)) _ htail
  rw [← htext] at hafter
  simp only [quotedOf?, hquoted, hstop, hvalue, hafter, Option.bind_eq_bind, Option.bind_some,
    Option.pure_def]

/-- No value is sliced out of place, also where a quote does not end. -/
theorem valueOf?_eq (text : List Char) : valueOf? text = some (takeValue text) := by
  cases text with
  | nil => rfl
  | cons c text =>
    rw [valueOf?, takeValue, List.head?_cons]
    cases hquote : (c = '"' || c = '\'') with
    | false =>
      rw [Option.filter_some_neg (by simp [hquote]), if_neg Bool.false_ne_true]
      dsimp only
      rw [getD_findChar?, cutAtByte_takeWhile]
    | true =>
      have hc : utf8Length [c] = 1 := by
        rw [Bool.or_eq_true, decide_eq_true_eq, decide_eq_true_eq] at hquote
        rcases hquote with rfl | rfl <;> decide
      rw [Option.filter_some_pos (by simp [hquote]), if_pos rfl]
      exact quotedOf?_eq hc text

theorem attributeOf?_eq (hc : isGap c = false) (text : List Char) :
    attributeOf? (c :: text) = some (takeAttribute c text) := by
  unfold attributeOf? takeAttribute
  simp only [nameOf?_eq hc, Option.bind_eq_bind, Option.bind_some, Option.pure_def, valueOf?_eq]
  generalize trimStart (takeName c text).2 = rest
  cases rest with
  | nil => rfl
  | cons sign after =>
    dsimp only
    split <;> rfl

theorem isGap_of_dropWhile (h : text.dropWhile isGap = c :: rest) : isGap c = false := by
  have hstops := List.head?_dropWhile_not isGap text
  rw [h] at hstops
  exact hstops

/-- An attribute takes at least one character of the text. -/
theorem length_of_attributeOf? {attr : Attribute} {after : List Char}
    (hgap : text.dropWhile isGap = c :: rest)
    (hattr : attributeOf? (c :: rest) = some (attr, after)) : after.length < text.length := by
  have htake : takeAttribute c rest = (attr, after) :=
    Option.some.inj ((attributeOf?_eq (isGap_of_dropWhile hgap) rest).symm.trans hattr)
  have hafter := length_takeAttribute_le c rest
  have htext := length_dropWhile_le isGap text
  rw [htake] at hafter
  dsimp only at hafter
  rw [hgap, List.length_cons] at htext
  omega

/-- The attributes of the inside of a tag. -/
def attributes? (text : List Char) : Option (List Attribute) :=
  match hgap : text.dropWhile isGap with
  | [] => some []
  | c :: rest =>
    match hattr : attributeOf? (c :: rest) with
    | none => none
    | some (attr, after) =>
      have := length_of_attributeOf? hgap hattr
      (attributes? after).map (attr :: ·)
  termination_by text.length

theorem attributes?_eq (text : List Char) : attributes? text = some (attributes text) := by
  fun_induction attributes text with
  | case1 text hgap =>
    rw [attributes?]
    split
    · rfl
    · next hcons => cases hgap.symm.trans hcons
  | case2 text c rest hgap _ ih =>
    have hattr := attributeOf?_eq (isGap_of_dropWhile hgap) rest
    rw [attributes?]
    split
    · next hnil => cases hgap.symm.trans hnil
    · next hcons =>
      obtain ⟨rfl, rfl⟩ := List.cons.inj (hgap.symm.trans hcons)
      split
      · next hnone => cases hattr.symm.trans hnone
      · next attr after hsome =>
        have htake : takeAttribute c rest = (attr, after) :=
          Option.some.inj (hattr.symm.trans hsome)
        rw [htake] at ih ⊢
        rw [ih, Option.map_some]

/-! ## Blocks by slices -/

/-- Whether a slash stands before a byte. -/
def slashBefore? (bytes : List UInt8) (n : Nat) : Option Bool :=
  if 0 < n then bytes[n - 1]?.map (· == '/'.toUInt8) else some false

/-- Whether the byte behind `<script` leaves it a tag. -/
def opensTagByte : Option UInt8 → Bool
  | none => true
  | some byte => byte == ' '.toUInt8 || byte == '\t'.toUInt8 || byte == '\n'.toUInt8 ||
      byte == '\r'.toUInt8 || byte == '>'.toUInt8 || byte == '/'.toUInt8

/-- Reads the block whose tag starts at the byte `start`; its name ends at the byte `inner`.  With
the script comes the byte at which the search for the next one starts. -/
def blockAt? (source : List Char) (start inner : Nat) : Option (Except Fault (Script × Nat)) := do
  let some tagEnd ← angleFrom? (utf8 source) inner | return .error (.unclosedScript start)
  let attrs ← attributes? (← slice? inner tagEnd source)
  if ← slashBefore? (utf8 source) tagEnd then
    return .ok (⟨"", tagEnd + 1, hasSetup attrs, langOf attrs⟩, tagEnd + 1)
  else
    let some bodyEnd ← findFrom? (utf8 source) (tagEnd + 1) (utf8 closeTag)
      | return .error (.unclosedScript start)
    let body ← slice? (tagEnd + 1) bodyEnd source
    return .ok (⟨String.ofList body, tagEnd + 1, hasSetup attrs, langOf attrs⟩,
      bodyEnd + (utf8 closeTag).length)

/-- The next block at or behind a byte, if there is one. -/
def nextScript? (source : List Char) (pointer : Nat) :
    Option (Except Fault (Option (Script × Nat))) :=
  match hfind : findFrom? (utf8 source) pointer (utf8 openTag) with
  | none => none
  | some none => some (.ok none)
  | some (some start) =>
    have := findFrom?_bounds hfind
    let inner := start + (utf8 openTag).length
    if opensTagByte (utf8 source)[inner]? then
      (blockAt? source start inner).map (·.map some)
    else nextScript? source inner
  termination_by (utf8 source).length - pointer
  decreasing_by
    have : (utf8 openTag).length = 7 := by decide
    omega

/-- Adds the blocks at or behind a byte to those found so far, latest first. -/
def scriptsFromByte? (source : List Char) (pointer : Nat) (found : List Script) :
    Option (Except Fault (List Script)) :=
  match nextScript? source pointer with
  | none => none
  | some (.error fault) => some (.error fault)
  | some (.ok none) => some (.ok found.reverse)
  | some (.ok (some (script, pointer))) =>
    if maxScripts < found.length + 1 then
      some (.error (.tooManyScripts (found.length + 1) maxScripts))
    else scriptsFromByte? source pointer (script :: found)
  termination_by maxScripts + 1 - found.length

/-- The script blocks of a component file, read by slices.  It is `none` if a slice is out of
place. -/
def scriptsBySlices? (source : String) : Option (Except Fault (List Script)) :=
  if maxFileSize < source.utf8ByteSize then
    some (.error (.fileTooLarge source.utf8ByteSize maxFileSize))
  else scriptsFromByte? source.toList 0 []

theorem isAscii_openTag : ∀ c ∈ openTag, IsAscii c := List.all_iff_forall_prop.1 (by decide)

theorem isAscii_closeTag : ∀ c ∈ closeTag, IsAscii c := List.all_iff_forall_prop.1 (by decide)

theorem slashBefore?_utf8 {front : List Char} (hfront : front ≠ []) (tail : List Char) :
    slashBefore? (utf8 (front ++ tail)) (utf8Length front) =
      some (decide (front.getLast? = some '/')) := by
  obtain ⟨byte, hbyte⟩ : ∃ byte, (utf8 front).getLast? = some byte := by
    obtain ⟨c, rest, rfl⟩ := List.exists_cons_of_ne_nil hfront
    refine ⟨_, List.getLast?_eq_some_getLast ?_⟩
    rw [utf8_cons]
    exact List.append_ne_nil_of_left_ne_nil (utf8EncodeChar_ne_nil c) _
  have hpos : 0 < (utf8 front).length :=
    List.length_pos_of_ne_nil fun hnil ↦ by rw [hnil] at hbyte; cases hbyte
  have hlast : (utf8 (front ++ tail))[(utf8 front).length - 1]? = some byte := by
    rw [utf8_append, List.getElem?_append_left (Nat.sub_lt hpos Nat.one_pos), ← hbyte,
      List.getLast?_eq_getElem?]
  have hslash := getLast?_utf8 (d := '/') (by decide) front
  rw [hbyte, Option.some.injEq] at hslash
  rw [← length_utf8, slashBefore?, if_pos hpos, hlast, Option.map_some, beq_eq_decide]
  simp only [hslash]

theorem opensTagByte_utf8 (front rest : List Char) :
    opensTagByte (utf8 (front ++ rest))[utf8Length front]? = opensTag rest := by
  have hnext : (utf8 (front ++ rest))[utf8Length front]? = (utf8 rest)[0]? := by
    rw [utf8_append, List.getElem?_append_right (length_utf8 front).le, length_utf8, Nat.sub_self]
  rw [hnext]
  cases rest with
  | nil => rfl
  | cons c rest =>
    obtain ⟨first, others, heq, hfirst⟩ := head_utf8EncodeChar c
    have hbyte (d : Char) (hd : IsAscii d) : (first == d.toUInt8) = (c == d) := by
      rw [Bool.eq_iff_iff, beq_iff_eq, beq_iff_eq]
      exact hfirst d hd
    rw [utf8_cons, heq, List.cons_append, List.getElem?_cons_zero, opensTagByte, opensTag,
      hbyte ' ' (by decide), hbyte '\t' (by decide), hbyte '\n' (by decide),
      hbyte '\r' (by decide), hbyte '>' (by decide), hbyte '/' (by decide)]

theorem getLast?_behind_openTag (front inside : List Char) :
    (front ++ openTag ++ inside).getLast? = some '/' ↔ inside.getLast? = some '/' := by
  obtain rfl | ⟨inside, c, rfl⟩ := inside.eq_nil_or_concat
  · have hlast : (front ++ openTag).getLast? = some 't' := by
      rw [List.getLast?_append_of_ne_nil _ (by decide)]
      decide
    rw [List.append_nil, hlast]
    decide
  · rw [List.concat_eq_append, List.getLast?_concat, ← List.append_assoc, List.getLast?_concat]

theorem slashBefore?_inside {front inside tail : List Char}
    (hsource : front ++ openTag ++ inside ++ tail = source) :
    slashBefore? (utf8 source) (utf8Length (front ++ openTag) + utf8Length inside) =
      some (decide (inside.getLast? = some '/')) := by
  have hne : front ++ openTag ++ inside ≠ [] :=
    List.append_ne_nil_of_left_ne_nil
      (List.append_ne_nil_of_right_ne_nil _ (by decide : openTag ≠ [])) _
  rw [← hsource, ← utf8Length_append, slashBefore?_utf8 hne]
  simp only [getLast?_behind_openTag]

/-- A block is read from the characters behind its name, wherever the block is. -/
theorem blockAt?_eq {lead : List Char} (hsource : before ++ lead ++ openTag ++ rest = source)
    (start : Nat) : blockAt? source start (utf8Length (before ++ lead ++ openTag)) = some (
      match closingAngle? rest with
      | none => .error (.unclosedScript start)
      | some (inside, body) =>
        let bodyAt := utf8Length (behindTag before lead inside)
        if inside.getLast? = some '/' then .ok (scriptOf inside [] bodyAt, bodyAt)
        else
          match cutAt closeTag body with
          | none => .error (.unclosedScript start)
          | some (content, _) => .ok (scriptOf inside content bodyAt,
              bodyAt + utf8Length content + utf8Length closeTag)) := by
  have htagEnd := angleFrom?_utf8 (before ++ lead ++ openTag) rest
  rw [hsource] at htagEnd
  rw [blockAt?, htagEnd]
  cases hangle : closingAngle? rest with
  | none => rfl
  | some pair =>
    obtain ⟨inside, body⟩ := pair
    have htag : before ++ lead ++ openTag ++ inside ++ ('>' :: body) = source := by
      rw [← hsource, closingAngle?_eq_some hangle, ← List.append_assoc]
    have hbody : behindTag before lead inside ++ body = source := by
      rw [← htag, behindTag, List.append_assoc _ ['>'], List.singleton_append]
    have hbodyAt : utf8Length (before ++ lead ++ openTag) + utf8Length inside + 1 =
        utf8Length (behindTag before lead inside) := by
      rw [utf8Length_behindTag, utf8Length_append, utf8Length_append]
    have hbodyEnd := findFrom?_utf8 (by decide) isAscii_closeTag (behindTag before lead inside) body
    rw [hbody] at hbodyEnd
    simp only [Option.map_some, Option.bind_eq_bind, Option.bind_some, Option.pure_def,
      slice?_of_append htag, slashBefore?_inside htag, attributes?_eq, decide_eq_true_eq, hbodyAt,
      hbodyEnd]
    split
    · rfl
    · cases hclose : cutAt closeTag body with
      | none => rfl
      | some pair =>
        obtain ⟨content, tail⟩ := pair
        have hcontent : behindTag before lead inside ++ content ++ (closeTag ++ tail) = source := by
          rw [← hbody, cutAt_eq_some hclose, List.append_assoc content,
            ← List.append_assoc _ content]
        simp only [Option.map_some, Option.bind_some, slice?_of_append hcontent, length_utf8]
        rfl

theorem nextScript?_eq (before text : List Char) :
    nextScript? (before ++ text) (utf8Length before) =
      match cutAt openTag text with
      | none => some (.ok none)
      | some (lead, rest) =>
        let start := utf8Length before + utf8Length lead
        let inner := start + utf8Length openTag
        if opensTag rest then
          (blockAt? (before ++ text) start inner).map (·.map some)
        else nextScript? (before ++ text) inner := by
  have hfind := findFrom?_utf8 (by decide) isAscii_openTag before text
  rw [nextScript?]
  cases hopen : cutAt openTag text with
  | none =>
    rw [hopen, Option.map_none] at hfind
    split
    · next hnone => cases hfind.symm.trans hnone
    · rfl
    · next hsome => cases hfind.symm.trans hsome
  | some pair =>
    obtain ⟨lead, rest⟩ := pair
    rw [hopen, Option.map_some] at hfind
    have hinner : utf8Length before + utf8Length lead + (utf8 openTag).length =
        utf8Length (before ++ lead ++ openTag) := by
      rw [utf8Length_append, utf8Length_append, length_utf8]
    have hopens : opensTagByte (utf8 (before ++ text))[utf8Length (before ++ lead ++ openTag)]? =
        opensTag rest := by
      rw [cutAt_eq_some hopen, ← List.append_assoc, ← List.append_assoc]
      exact opensTagByte_utf8 _ rest
    split
    · next hnone => cases hfind.symm.trans hnone
    · next hnone => cases hfind.symm.trans hnone
    · next start hsome =>
      obtain rfl := Option.some.inj (Option.some.inj (hfind.symm.trans hsome))
      simp only [hinner, hopens]
      rw [utf8Length_append, utf8Length_append]

theorem scriptsFromByte?_congr {pointer pointer' : Nat}
    (h : nextScript? source pointer = nextScript? source pointer') :
    scriptsFromByte? source pointer found = scriptsFromByte? source pointer' found := by
  rw [scriptsFromByte?, h, ← scriptsFromByte?]

/-- Behind what is read, both readings find the same. -/
theorem scriptsFromByte?_eq (hsource : before ++ text = source) :
    scriptsFromByte? source (utf8Length before) found =
      some (scriptsFrom (utf8Length before) found text) := by
  -- On the text that is left: both readings take the same cuts, and a longer name only moves them
  -- on without a script, which the reading by bytes does inside `nextScript?`.
  induction hlength : text.length using Nat.strongRecOn generalizing before text found with
  | ind n ih =>
  have hnext := nextScript?_eq before text
  rw [scriptsFrom_eq]
  rw [hsource] at hnext
  cases hopen : cutAt openTag text with
  | none =>
    rw [hopen] at hnext
    rw [scriptsFromByte?, hnext]
  | some pair =>
    obtain ⟨lead, rest⟩ := pair
    have hshort := length_of_cutAt hopen
    have hname : openTag.length = 7 := by decide
    have hrest : before ++ lead ++ openTag ++ rest = source := by
      rw [← hsource, cutAt_eq_some hopen]
      simp
    have hinner : utf8Length before + utf8Length lead + utf8Length openTag =
        utf8Length (before ++ lead ++ openTag) := by
      rw [utf8Length_append, utf8Length_append]
    rw [hopen] at hnext
    dsimp only at hnext ⊢
    rw [hinner] at hnext
    by_cases hopens : opensTag rest = true
    · rw [if_pos hopens] at hnext ⊢
      rw [scriptsFromByte?, hnext, blockAt?_eq hrest]
      cases hangle : closingAngle? rest with
      | none => rfl
      | some pair =>
        obtain ⟨inside, body⟩ := pair
        have hbody : behindTag before lead inside ++ body = source :=
          (behindTag_append hopen hangle).symm.trans hsource
        have hshorter := closingAngle?_length hangle
        simp only [← utf8Length_behindTag, Option.map_some]
        by_cases hslash : inside.getLast? = some '/'
        · simp only [if_pos hslash, Except.map]
          split
          · rfl
          · exact ih body.length (by omega) hbody rfl
        · simp only [if_neg hslash]
          cases hclose : cutAt closeTag body with
          | none => rfl
          | some pair =>
            obtain ⟨content, tail⟩ := pair
            have hshortest := length_of_cutAt hclose
            have htail : behindTag before lead inside ++ content ++ closeTag ++ tail = source := by
              rw [← hbody, cutAt_eq_some hclose]
              simp
            simp only [Except.map, ← utf8Length_append]
            split
            · rfl
            · exact ih tail.length (by omega) htail rfl
    · rw [if_neg hopens] at hnext ⊢
      rw [scriptsFromByte?_congr hnext, hinner]
      exact ih rest.length (by omega) hrest rfl

/-- Reading by slices never fails: no slice of the source is out of place. -/
theorem scriptsBySlices?_eq (source : String) :
    scriptsBySlices? source = some (scripts source) := by
  rw [scriptsBySlices?, scripts]
  split
  · rfl
  · exact scriptsFromByte?_eq (List.nil_append source.toList)

/-! ## Every source -/

/-- What holds of the reading of every source. -/
structure Safe (source : String) : Prop where
  /-- The reading comes to an end with all its slices in place. -/
  sliced : scriptsBySlices? source = some (scripts source)
  /-- The scripts stand one after another in the source. -/
  extracted : ∀ found, scripts source = .ok found → Extracted source.toList found
  /-- A script is the slice of the source at its offset. -/
  slice : ∀ found, scripts source = .ok found → ∀ script ∈ found,
    slice? script.offset script.stop source.toList = some script.text.toList
  /-- A tag that is reported as unclosed opens where it is said to. -/
  unclosed : ∀ position, scripts source = .error (.unclosedScript position) →
    OpensAt source.toList position
  /-- With too many scripts the reading stops at the first that is too many. -/
  tooMany : ∀ count max, scripts source = .error (.tooManyScripts count max) →
    count = maxScripts + 1 ∧ max = maxScripts
  /-- A source is refused for its size only if it is larger than may be read. -/
  tooLarge : ∀ size max, scripts source = .error (.fileTooLarge size max) →
    max = maxFileSize ∧ max < size

theorem Stands.slice {after : List Char} {script : Script}
    (h : Stands source before script after) :
    slice? script.offset script.stop source = some script.text.toList := by
  rw [Script.stop, ← h.offset_eq]
  exact slice?_of_append h.source_eq.symm

/-- Whatever a source holds, its scripts can be read, and what is read or reported is in it. -/
theorem scripts_safe (source : String) : Safe source := by
  have hsound := sound_scripts source
  refine ⟨scriptsBySlices?_eq source, ?_, ?_, ?_, ?_, ?_⟩
  · intro found h
    rwa [h] at hsound
  · intro found h script hmem
    rw [h] at hsound
    obtain ⟨before, after, hstands⟩ := hsound.stands script hmem
    exact hstands.slice
  · intro position h
    rwa [h] at hsound
  · intro count max h
    rwa [h] at hsound
  · intro size max h
    rwa [h] at hsound

end Component
end ImpactGraph
