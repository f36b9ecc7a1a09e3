import ImpactGraph.Proofs.Component.Script

/-!
# Reading back a rendered component

A `Document` is a component as it is written: script blocks with the text around them.  Its types
say what may be written where: a value does not hold its own quote, a body does not hold the tag
that closes it, the text around the blocks does not hold the start of a tag.  Nothing else is asked,
so that values may hold `>` and `/>`, and bodies may hold further opening tags.

`scripts_text` says that `scripts` reads exactly these blocks out of the text of a document.  Each
of the readers of `Component.Tag` is first shown to stop where the written piece ends:
`closingAngle?_inside` for the search for `>`, `attributes_inside` for the attributes.
-/

set_option autoImplicit false

namespace ImpactGraph
namespace Component

open Text

/-! ## What is written -/

/-- One of the two quotes that stand around a value. -/
inductive Quote
  | single
  | double
  deriving DecidableEq, Repr

/-- The character of a quote. -/
def Quote.char : Quote → Char
  | .single => '\''
  | .double => '"'

/-- A value in quotes. -/
structure Quoted where
  /-- The quote on both sides. -/
  quote : Quote
  /-- What stands between the quotes. -/
  text : List Char
  /-- The value does not end earlier. -/
  not_mem : quote.char ∉ text

/-- The value with its quotes. -/
def Quoted.written (value : Quoted) : List Char :=
  value.quote.char :: (value.text ++ [value.quote.char])

/-- Whether a character may stand in the name of an attribute. -/
def IsNameChar (c : Char) : Prop := isBlank c = false ∧ c ∉ ['=', '/', '>', '"', '\'']

instance : DecidablePred IsNameChar := fun c ↦
  inferInstanceAs (Decidable (isBlank c = false ∧ c ∉ ['=', '/', '>', '"', '\'']))

/-- An attribute as it is written in a tag. -/
structure Written where
  /-- The name. -/
  name : List Char
  /-- The value after the sign `=`, if there is one. -/
  value : Option Quoted
  /-- There is a name. -/
  name_ne_nil : name ≠ []
  /-- The name can be told from what follows it. -/
  isNameChar : ∀ c ∈ name, IsNameChar c

namespace Written

/-- What follows the name. -/
def assigned (attr : Written) : List Char :=
  match attr.value with
  | none => []
  | some value => '=' :: value.written

/-- The text of an attribute. -/
def text (attr : Written) : List Char := ' ' :: (attr.name ++ attr.assigned)

/-- The attribute that is meant. -/
def meant (attr : Written) : Attribute := ⟨attr.name, attr.value.map (·.text)⟩

end Written

/-- A script block as it is written. -/
structure Block where
  /-- The attributes of the opening tag. -/
  attrs : List Written
  /-- What stands between the tags. -/
  body : List Char
  /-- The block does not end earlier. -/
  not_closed : ¬closeTag <:+: body

namespace Block

/-- The inside of the opening tag. -/
def inside (block : Block) : List Char := block.attrs.flatMap Written.text

/-- The opening tag. -/
def opening (block : Block) : List Char := openTag ++ (block.inside ++ ['>'])

/-- The text of a block. -/
def text (block : Block) : List Char := block.opening ++ (block.body ++ closeTag)

/-- The language of a block: the value of the first attribute named `lang` in any case. -/
def lang (block : Block) : String :=
  match (block.attrs.find? (·.name.map Char.toLower == "lang".toList)).bind (·.value) with
  | none => "js"
  | some value => if value.text = [] then "js" else String.ofList value.text

/-- The script that is meant by a block, when it is written after `before`. -/
def script (block : Block) (before : List Char) : Script where
  text := String.ofList block.body
  offset := utf8Length (before ++ block.opening)
  setup := decide (∃ attr ∈ block.attrs, attr.name = "setup".toList)
  lang := block.lang

end Block

/-- A text beside the blocks: no script tag starts in it. -/
abbrev Markup : Type := {text : List Char // ¬openTag <:+: text}

/-- A component as it is written. -/
structure Document where
  /-- The blocks, each with the text before it. -/
  blocks : List (Markup × Block)
  /-- The text after the last block. -/
  tail : Markup

namespace Document

/-- The text of blocks with the texts before them. -/
def blocksText (blocks : List (Markup × Block)) : List Char :=
  blocks.flatMap fun (lead, block) ↦ lead.1 ++ block.text

/-- The text of a document. -/
def text (document : Document) : List Char := blocksText document.blocks ++ document.tail.1

/-- The scripts that are meant by blocks, when they are written after `before`. -/
def scriptsAfter (before : List Char) : List (Markup × Block) → List Script
  | [] => []
  | (lead, block) :: blocks =>
    block.script (before ++ lead.1) :: scriptsAfter (before ++ lead.1 ++ block.text) blocks

end Document

/-! ## Attributes -/

theorem attributes_of_dropWhile {text rest : List Char} {c : Char}
    (h : text.dropWhile isGap = c :: rest) :
    attributes text = (takeAttribute c rest).1 :: attributes (takeAttribute c rest).2 := by
  rw [attributes]
  split
  · next hnil => cases hnil.symm.trans h
  · next hcons =>
    obtain ⟨rfl, rfl⟩ := List.cons.inj (hcons.symm.trans h)
    rfl

theorem attributes_nil : attributes [] = [] := by
  rw [attributes]
  rfl

/-- What may follow an attribute: nothing, or the next one. -/
def IsNext (text : List Char) : Prop := ∀ c ∈ text.head?, c = ' '

theorem endsName_head {text : List Char} (hnext : IsNext text) :
    ∀ c ∈ text.head?, endsName c = true := by
  intro c hc
  rw [hnext c hc]
  decide

namespace IsNameChar

variable {c : Char}

theorem endsName (h : IsNameChar c) : endsName c = false := by
  obtain ⟨hblank, hmem⟩ := h
  simp_all [Component.endsName]

theorem isGap (h : IsNameChar c) : isGap c = false := by
  obtain ⟨hblank, hmem⟩ := h
  simp_all [Component.isGap]

end IsNameChar

theorem takeName_append {c : Char} {name rest : List Char}
    (hname : ∀ d ∈ c :: name, IsNameChar d) (hrest : ∀ d ∈ rest.head?, endsName d = true) :
    takeName c (name ++ rest) = (c :: name, rest) := by
  have hall : ∀ d ∈ name, (!endsName d) = true := by
    intro d hd
    rw [(hname d (List.mem_cons_of_mem _ hd)).endsName, Bool.not_false]
  have hstop : rest.takeWhile (!endsName ·) = [] ∧ rest.dropWhile (!endsName ·) = rest := by
    cases rest with
    | nil => exact ⟨rfl, rfl⟩
    | cons d rest => simp [hrest d rfl]
  rw [takeName, (hname c List.mem_cons_self).endsName, if_neg Bool.false_ne_true,
    List.takeWhile_append_of_pos hall, List.dropWhile_append_of_pos hall, hstop.1, hstop.2,
    List.append_nil]

theorem trimStart_of_head {c : Char} {text : List Char} (h : isBlank c = false) :
    trimStart (c :: text) = c :: text := by
  rw [trimStart, List.dropWhile_cons_of_neg (by simp [h])]

theorem Quote.isBlank_char (quote : Quote) : isBlank quote.char = false := by
  cases quote <;> decide

theorem takeValue_written (value : Quoted) (rest : List Char) :
    takeValue (value.written ++ rest) = (value.text, rest) := by
  have hquote : (value.quote.char = '"' || value.quote.char = '\'') = true := by
    cases value.quote <;> rfl
  have hall : ∀ c ∈ value.text, (c != value.quote.char) = true := by
    intro c hc
    rw [bne_iff_ne]
    rintro rfl
    exact value.not_mem hc
  rw [Quoted.written, List.cons_append, List.append_assoc, takeValue, if_pos hquote,
    List.takeWhile_append_of_pos hall, List.dropWhile_append_of_pos hall]
  simp

theorem takeAttribute_of_bare {c : Char} {text name rest : List Char}
    (hname : takeName c text = (name, rest)) (hsign : (trimStart rest).head? ≠ some '=') :
    takeAttribute c text = (⟨name, none⟩, rest) := by
  unfold takeAttribute
  rw [hname]
  generalize trimStart rest = trimmed at hsign
  cases trimmed with
  | nil => rfl
  | cons sign after =>
    have hne : sign ≠ '=' := by
      rintro rfl
      exact hsign rfl
    exact if_neg hne

theorem takeAttribute_of_assigned {c : Char} {text name rest after : List Char}
    (hname : takeName c text = (name, rest)) (hsign : trimStart rest = '=' :: after) :
    takeAttribute c text =
      (⟨name, some (takeValue (trimStart after)).1⟩, (takeValue (trimStart after)).2) := by
  unfold takeAttribute
  rw [hname]
  simp only [hsign, if_true]

/-- An attribute is read up to the next one. -/
theorem takeAttribute_written (attr : Written) {c : Char} {name rest : List Char}
    (hname : attr.name = c :: name) (hnext : IsNext rest)
    (hsign : (trimStart rest).head? ≠ some '=') :
    takeAttribute c (name ++ (attr.assigned ++ rest)) = (attr.meant, rest) := by
  have hchars : ∀ d ∈ c :: name, IsNameChar d := hname ▸ attr.isNameChar
  rw [Written.assigned, Written.meant, hname]
  cases attr.value with
  | none =>
    rw [List.nil_append]
    exact takeAttribute_of_bare (takeName_append hchars (endsName_head hnext)) hsign
  | some value =>
    have hends : ∀ d ∈ ('=' :: value.written ++ rest).head?, endsName d = true := by
      rintro d ⟨⟩
      decide
    have hassign : trimStart ('=' :: value.written ++ rest) = '=' :: (value.written ++ rest) :=
      trimStart_of_head (by decide)
    have hstart : trimStart (value.written ++ rest) = value.written ++ rest :=
      trimStart_of_head value.quote.isBlank_char
    rw [takeAttribute_of_assigned (takeName_append hchars hends) hassign, hstart,
      takeValue_written, Option.map_some]

theorem isNext_inside (attrs : List Written) : IsNext (attrs.flatMap Written.text) := by
  cases attrs with
  | nil => rintro c ⟨⟩
  | cons attr attrs =>
    rintro c ⟨⟩
    rfl

/-- An attribute is a blank, the first character of its name, and more. -/
theorem Written.exists_name (attr : Written) :
    ∃ (c : Char) (name : List Char), attr.name = c :: name ∧ IsNameChar c ∧
      ∀ rest, attr.text ++ rest = ' ' :: c :: (name ++ (attr.assigned ++ rest)) := by
  obtain ⟨c, name, hname⟩ := List.exists_cons_of_ne_nil attr.name_ne_nil
  refine ⟨c, name, hname, attr.isNameChar c (hname ▸ List.mem_cons_self), fun rest ↦ ?_⟩
  rw [Written.text, hname, List.cons_append, List.cons_append, List.cons_append,
    List.append_assoc]

theorem trimStart_inside (attrs : List Written) :
    (trimStart (attrs.flatMap Written.text)).head? ≠ some '=' := by
  cases attrs with
  | nil => simp [trimStart]
  | cons attr attrs =>
    obtain ⟨c, name, -, hc, htext⟩ := attr.exists_name
    rw [List.flatMap_cons, htext, trimStart, List.dropWhile_cons_of_pos (by decide), ← trimStart,
      trimStart_of_head hc.1]
    rintro ⟨⟩
    exact hc.2 (by simp)

/-- The attributes that are written in a tag are read in order. -/
theorem attributes_inside (attrs : List Written) :
    attributes (attrs.flatMap Written.text) = attrs.map Written.meant := by
  induction attrs with
  | nil => exact attributes_nil
  | cons attr attrs ih =>
    obtain ⟨c, name, hname, hc, htext⟩ := attr.exists_name
    have hdrop : ((attr :: attrs).flatMap Written.text).dropWhile isGap =
        c :: (name ++ (attr.assigned ++ attrs.flatMap Written.text)) := by
      rw [List.flatMap_cons, htext, List.dropWhile_cons_of_pos (by decide),
        List.dropWhile_cons_of_neg (by simp [hc.isGap])]
    rw [attributes_of_dropWhile hdrop,
      takeAttribute_written attr hname (isNext_inside attrs) (trimStart_inside attrs), ih,
      List.map_cons]

/-! ## Tags -/

/-- Outside quotes the search goes on over what is neither a quote nor `>`. -/
theorem closingAngleFrom_plain {text : List Char} (h : ∀ c ∈ text, c ∉ ['>', '"', '\''])
    (inside rest : List Char) : closingAngleFrom none inside (text ++ rest) =
      closingAngleFrom none (text.reverse ++ inside) rest := by
  induction text generalizing inside with
  | nil => rfl
  | cons c text ih =>
    obtain ⟨hc, htext⟩ := List.forall_mem_cons.1 h
    simp only [List.mem_cons, List.not_mem_nil, or_false, not_or] at hc
    have hstep : quoteStep none c = none := by simp [quoteStep, hc]
    rw [List.cons_append, closingAngleFrom, if_neg (by simp [hc]), hstep, ih htext]
    simp

/-- In quotes the search goes on to the end of the value. -/
theorem closingAngleFrom_quoted {text : List Char} {q : Char} (h : q ∉ text)
    (inside rest : List Char) : closingAngleFrom (some q) inside (text ++ q :: rest) =
      closingAngleFrom none (q :: (text.reverse ++ inside)) rest := by
  induction text generalizing inside with
  | nil => simp [closingAngleFrom, quoteStep]
  | cons c text ih =>
    have hstep : quoteStep (some q) c = some q := by
      rw [quoteStep, if_neg]
      rintro rfl
      exact h List.mem_cons_self
    rw [List.cons_append, closingAngleFrom, if_neg (by simp), hstep,
      ih fun hq ↦ h (List.mem_cons_of_mem _ hq)]
    simp

theorem closingAngleFrom_written (value : Quoted) (inside rest : List Char) :
    closingAngleFrom none inside (value.written ++ rest) =
      closingAngleFrom none (value.written.reverse ++ inside) rest := by
  have hstep : quoteStep none value.quote.char = some value.quote.char := by
    cases value.quote <;> rfl
  have hangle : (value.quote.char = '>' && (none : Option Char).isNone) = false := by
    cases value.quote <;> rfl
  rw [Quoted.written, List.cons_append, closingAngleFrom, hangle, if_neg Bool.false_ne_true, hstep,
    List.append_assoc, List.singleton_append, closingAngleFrom_quoted value.not_mem]
  simp

theorem closingAngleFrom_text (attr : Written) (inside rest : List Char) :
    closingAngleFrom none inside (attr.text ++ rest) =
      closingAngleFrom none (attr.text.reverse ++ inside) rest := by
  have hname : ∀ c ∈ ' ' :: attr.name, c ∉ ['>', '"', '\''] := by
    refine List.forall_mem_cons.2 ⟨by decide, fun c hc hmem ↦ (attr.isNameChar c hc).2 ?_⟩
    exact List.mem_of_mem_tail (List.mem_of_mem_tail hmem)
  rw [Written.text, ← List.cons_append, List.append_assoc, closingAngleFrom_plain hname,
    Written.assigned]
  cases attr.value with
  | none => simp
  | some value =>
    have hequals : ∀ c ∈ ['='], c ∉ ['>', '"', '\''] := List.forall_mem_singleton.2 (by decide)
    have hsign := closingAngleFrom_plain hequals
      ((' ' :: attr.name).reverse ++ inside) (value.written ++ rest)
    simp only [List.cons_append, List.nil_append] at hsign ⊢
    rw [hsign, closingAngleFrom_written]
    simp

/-- The tag ends after the attributes, whatever their values hold. -/
theorem closingAngle?_inside (attrs : List Written) (rest : List Char) :
    closingAngle? (attrs.flatMap Written.text ++ '>' :: rest) =
      some (attrs.flatMap Written.text, rest) := by
  suffices h : ∀ inside, closingAngleFrom none inside (attrs.flatMap Written.text ++ '>' :: rest) =
      some ((attrs.flatMap Written.text).reverse ++ inside, rest) by
    rw [closingAngle?, h]
    simp
  induction attrs with
  | nil => simp [closingAngleFrom]
  | cons attr attrs ih =>
    intro inside
    rw [List.flatMap_cons, List.append_assoc, closingAngleFrom_text, ih]
    simp

theorem Written.getLast?_text (attr : Written) : attr.text.getLast? ≠ some '/' := by
  rw [Written.text, Written.assigned]
  cases attr.value with
  | none =>
    intro hlast
    rw [List.append_nil, List.getLast?_cons,
      List.getLast?_eq_some_getLast attr.name_ne_nil] at hlast
    have hmem := List.getLast_mem attr.name_ne_nil
    rw [show attr.name.getLast attr.name_ne_nil = '/' by simpa using hlast] at hmem
    exact (attr.isNameChar _ hmem).2 (by decide)
  | some value =>
    have hlast : (' ' :: (attr.name ++ '=' :: value.written)).getLast? =
        some value.quote.char := by
      simp [Quoted.written, List.getLast?_cons, List.getLast?_append]
    rw [hlast]
    cases value.quote <;> decide

/-- The opening tag of a written block does not close it at once. -/
theorem getLast?_inside (attrs : List Written) :
    (attrs.flatMap Written.text).getLast? ≠ some '/' := by
  obtain rfl | ⟨front, attr, rfl⟩ := attrs.eq_nil_or_concat
  · simp
  · rw [List.concat_eq_append, List.flatMap_append, List.flatMap_singleton, Written.text,
      List.getLast?_append_cons]
    exact attr.getLast?_text

theorem opensTag_inside (attrs : List Written) (rest : List Char) :
    opensTag (attrs.flatMap Written.text ++ '>' :: rest) = true := by
  cases attrs <;> rfl

/-! ## Blocks -/

namespace Block

theorem langOf_meant (block : Block) : langOf (block.attrs.map Written.meant) = block.lang := by
  have hfind : (block.attrs.map Written.meant).find? (·.name.map lowerAscii == "lang".toList) =
      (block.attrs.find? (·.name.map Char.toLower == "lang".toList)).map Written.meant := by
    rw [List.find?_map]
    rfl
  rw [langOf, hfind, lang]
  cases block.attrs.find? (·.name.map Char.toLower == "lang".toList) with
  | none => rfl
  | some attr =>
    rw [Option.map_some, Option.bind_some, Option.bind_some, Written.meant]
    cases attr.value with
    | none => rfl
    | some value =>
      dsimp only [Option.map_some]
      split <;> simp_all [defaultLang]

theorem hasSetup_meant (block : Block) : hasSetup (block.attrs.map Written.meant) =
    decide (∃ attr ∈ block.attrs, attr.name = "setup".toList) := by
  rw [hasSetup, List.any_map, Bool.eq_iff_iff, List.any_eq_true, decide_eq_true_iff]
  simp only [Function.comp_apply, Written.meant, beq_iff_eq]

/-- What is read from the tag and the body of a written block is what the block means. -/
theorem scriptOf_inside (block : Block) (before : List Char) :
    scriptOf block.inside block.body (utf8Length (before ++ block.opening)) =
      block.script before := by
  simp only [scriptOf, inside, attributes_inside, langOf_meant, hasSetup_meant, script]

/-- A written block is read as what it means, and the reading goes on behind it. -/
theorem scriptsFrom_text (block : Block) (lead : Markup) {found : List Script}
    (hroom : found.length < maxScripts) (before rest : List Char) :
    scriptsFrom (utf8Length before) found (lead.1 ++ (block.text ++ rest)) =
      scriptsFrom (utf8Length (before ++ lead.1 ++ block.text))
        (block.script (before ++ lead.1) :: found) rest := by
  have htext : block.text ++ rest =
      openTag ++ (block.inside ++ '>' :: (block.body ++ (closeTag ++ rest))) := by
    simp [text, opening]
  have hopener : '<' ∉ "script".toList := by decide
  have hopen : cutAt openTag (lead.1 ++ (block.text ++ rest)) =
      some (lead.1, block.inside ++ '>' :: (block.body ++ (closeTag ++ rest))) :=
    htext ▸ cutAt_append hopener lead.2
  have hangle := closingAngle?_inside block.attrs (block.body ++ (closeTag ++ rest))
  have hcloser : '<' ∉ "/script>".toList := by decide
  have hclose : cutAt closeTag (block.body ++ (closeTag ++ rest)) = some (block.body, rest) :=
    cutAt_append hcloser block.not_closed
  have hstart : utf8Length before + utf8Length lead.1 + utf8Length openTag +
      utf8Length block.inside + 1 = utf8Length (before ++ lead.1 ++ block.opening) := by
    have hsign : '>'.utf8Size = 1 := by decide
    simp only [opening, utf8Length_append, utf8Length_cons, utf8Length_nil, hsign]
    omega
  have hend : utf8Length (before ++ lead.1 ++ block.opening) + utf8Length block.body +
      utf8Length closeTag = utf8Length (before ++ lead.1 ++ block.text) := by
    simp only [text, utf8Length_append]
    omega
  rw [scriptsFrom_eq, hopen]
  dsimp only
  rw [inside, if_pos (opensTag_inside _ _), hangle]
  dsimp only
  rw [if_neg (getLast?_inside _), hclose]
  dsimp only
  rw [if_neg (by omega), ← inside, hstart, hend, scriptOf_inside]

end Block

namespace Document

theorem scriptsFrom_blocksText (tail : Markup) (blocks : List (Markup × Block))
    (before : List Char) (found : List Script) (hroom : found.length + blocks.length ≤ maxScripts) :
    scriptsFrom (utf8Length before) found (blocksText blocks ++ tail.1) =
      .ok (found.reverse ++ scriptsAfter before blocks) := by
  induction blocks generalizing before found with
  | nil =>
    have hopen : cutAt openTag tail.1 = none :=
      (cutAt_eq_none_iff (by decide)).2 tail.2
    simp only [blocksText, List.flatMap_nil, List.nil_append, scriptsAfter, List.append_nil]
    rw [scriptsFrom_eq, hopen]
  | cons head blocks ih =>
    obtain ⟨lead, block⟩ := head
    rw [List.length_cons] at hroom
    have htext : blocksText ((lead, block) :: blocks) ++ tail.1 =
        lead.1 ++ (block.text ++ (blocksText blocks ++ tail.1)) := by
      simp [blocksText]
    rw [htext, block.scriptsFrom_text lead (by omega), ih _ _ (by rw [List.length_cons]; omega),
      scriptsAfter, List.reverse_cons, List.append_assoc, List.singleton_append]

/-- Reading undoes writing: the scripts of a written component are those that its blocks mean, each
at the byte where its body was written. -/
theorem scripts_text (document : Document) (hcount : document.blocks.length ≤ maxScripts)
    (hsize : (String.ofList document.text).utf8ByteSize ≤ maxFileSize) :
    scripts (String.ofList document.text) = .ok (scriptsAfter [] document.blocks) := by
  rw [scripts, if_neg (Nat.not_lt.2 hsize), String.toList_ofList, text]
  exact scriptsFrom_blocksText document.tail document.blocks [] []
    (by rw [List.length_nil, Nat.zero_add]; exact hcount)

/-- A component with two blocks: in the first, values hold the signs that end a tag, and the body
holds an opening tag and the start of a closing one. -/
def sample : Document where
  blocks :=
    [(⟨"<b>é</b>\n".toList, by decide⟩,
      { attrs :=
          [⟨"setup".toList, none, by decide, List.all_iff_forall_prop.1 (by decide)⟩,
            ⟨"data-x".toList, some ⟨.double, "a>b/>'".toList, by decide⟩, by decide,
              List.all_iff_forall_prop.1 (by decide)⟩,
            ⟨"LANG".toList, some ⟨.single, "ts".toList, by decide⟩, by decide,
              List.all_iff_forall_prop.1 (by decide)⟩]
        body := "'<script>' + '</scrip' + π".toList
        not_closed := by decide }),
      (⟨"\n<scrip é>".toList, by decide⟩,
        { attrs := []
          body := []
          not_closed := by decide })]
  tail := ⟨"</script>".toList, by decide⟩

/-- The sample is read back. -/
theorem scripts_sample :
    sample.blocks.length ≤ maxScripts ∧
      (String.ofList sample.text).utf8ByteSize ≤ maxFileSize ∧
      scripts ("<b>é</b>\n<script setup data-x=\"a>b/>'\" LANG='ts'>" ++
        "'<script>' + '</scrip' + π</script>\n<scrip é><script></script></script>") =
        .ok [⟨"'<script>' + '</scrip' + π", 50, true, "ts"⟩, ⟨"", 105, false, "js"⟩] := by
  have htext : String.ofList sample.text =
      "<b>é</b>\n<script setup data-x=\"a>b/>'\" LANG='ts'>" ++
        "'<script>' + '</scrip' + π</script>\n<scrip é><script></script></script>" := by
    decide +kernel
  have hmeant : scriptsAfter [] sample.blocks =
      [⟨"'<script>' + '</scrip' + π", 50, true, "ts"⟩, ⟨"", 105, false, "js"⟩] := by
    decide +kernel
  have hcount : sample.blocks.length ≤ maxScripts := by decide
  have hsize : (String.ofList sample.text).utf8ByteSize ≤ maxFileSize := by
    rw [htext]
    decide +kernel
  refine ⟨hcount, hsize, ?_⟩
  rw [← htext, ← hmeant]
  exact scripts_text sample hcount hsize

end Document
end Component
end ImpactGraph
