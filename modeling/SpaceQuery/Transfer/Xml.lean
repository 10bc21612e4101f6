import SpaceQuery.Transfer.Markup

/-!
XML: `render_xml` of `ui/result_export.rs` and `parse_xml` of `ui/result_import.rs`. The reader is
the one for HTML: the text of a void element is lost, and children are looked up without regard to
ASCII case.
-/

namespace SpaceQuery.Transfer

open List RustText

open Option hiding map map_map

/-! ### Writing -/

def replacementChar : Char := Char.ofNat 0xFFFD

/-- A character that XML cannot write, not even as a character reference. -/
def isUnwritable (ch : Char) : Bool :=
  ch ≠ '\r' && ch ≠ '\t' && ch ≠ '\n'
    && (ch.toNat < 0x20 || ch.toNat == 0xFFFE || ch.toNat == 0xFFFF)

/-- The text that `escape_markup` writes for a character. -/
def escapeChar (html : Bool) (ch : Char) : Text :=
  if ch = '&' then "&amp;".toList
  else if ch = '<' then "&lt;".toList
  else if ch = '>' then "&gt;".toList
  else if ch = '"' ∧ html then "&quot;".toList
  else if ch = '\r' then "&#13;".toList
  else if isUnwritable ch then [replacementChar]
  else [ch]

variable (value : Text)

def escapeMarkup (html : Bool) : Text := value.flatMap (escapeChar html)

def escapeXmlText : Text := escapeMarkup value false

section

variable [UnicodeClasses]

/-- A character that an element name keeps. -/
def isKept (ch : Char) : Bool := isAlphanumeric ch || ch == '_' || ch == '-' || ch == '.'

def xmlElementName (column : Text) (index : ℕ) : Text :=
  let name := (trim column).map fun ch => if isKept ch then ch else '_'
  let startsLegally := name.head?.any fun ch => isAlphabetic ch || ch == '_'
  if !startsLegally || "xml".toList.isPrefixOf (name.map Char.toLower) then
    "column_".toList ++ Nat.toDigits 10 (index + 1)
  else name

end

variable (name : Text)

/-- The name with a suffix. -/
def suffixed (suffix : ℕ) : Text := name ++ '_' :: Nat.toDigits 10 suffix

/-- The first suffixed name that is free, among the next `fuel + 1`. -/
def freeName (taken : List Text) (name : Text) : ℕ → ℕ → Text
  | 0, suffix => suffixed name suffix
  | fuel + 1, suffix =>
    if suffixed name suffix ∈ taken then freeName taken name fuel (suffix + 1)
    else suffixed name suffix

variable (taken : List Text)

/-- The name to use after those that are taken. -/
def uniqueName (name : Text) : Text :=
  if name ∈ taken then freeName taken name taken.length 2 else name

/-- The names that are taken are those that were returned. -/
def uniqueFieldNames (names : List Text) : List Text :=
  names.foldl (fun taken name => taken ++ [uniqueName taken name]) []

open ExportGrid

/-- The element names of the columns. -/
def ExportGrid.xmlNames [UnicodeClasses] (grid : ExportGrid) : List Text :=
  uniqueFieldNames (grid.columns.mapIdx fun index column => xmlElementName column index)

def cellIndent : Text := [' ', ' ', ' ', ' ']

def xmlNullElement : Text := cellIndent ++ '<' :: (name ++ ['/', '>', '\n'])

def xmlValueElement (name value : Text) : Text :=
  cellIndent ++ '<' :: (name ++ '>' :: (escapeXmlText value ++ '<' :: '/' :: (name ++ ['>', '\n'])))

def renderXmlCell : Cell → Text
  | none => xmlNullElement name
  | some value => xmlValueElement name value

def rowIndent : Text := [' ', ' ']

def rowName : Text := "row".toList

def resultsName : Text := "results".toList

def renderXmlRow (names : List Text) (row : List Cell) : Text :=
  rowIndent ++ '<' :: (rowName ++ ['>', '\n'])
    ++ (names.zipIdx.flatMap fun (name, index) => renderXmlCell name (ExportGrid.cell row index))
    ++ rowIndent ++ '<' :: '/' :: (rowName ++ ['>', '\n'])

def xmlDeclaration : Text := "xml version=\"1.0\" encoding=\"UTF-8\"?".toList

def renderXml [UnicodeClasses] (grid : ExportGrid) : Text :=
  '<' :: '?' :: (xmlDeclaration ++ ['>', '\n']) ++ '<' :: (resultsName ++ ['>', '\n'])
    ++ grid.rows.flatMap (renderXmlRow grid.xmlNames)
    ++ '<' :: '/' :: (resultsName ++ ['>', '\n'])

/-! ### Reading -/

/-- The name of a cell is added to the columns, unless it is among them. -/
def addColumn (columns : List Text) (name : Text) : List Text :=
  if columns.contains name then columns else columns ++ [name]

/-- The value of an element: `<C/>` is NULL, `<C></C>` is the empty string. -/
def xmlValue (cell : MarkupNode) : Cell := if cell.selfClosing then none else some cell.allText

/-- The cell of a row in a column. -/
def xmlCell (row : MarkupNode) (column : Text) : Cell :=
  (row.childrenNamed column).head?.bind xmlValue

def parseXml (text : Text) : Except String ImportedTable :=
  match (parseMarkup text).find? (!·.name.isEmpty) with
  | none => .error "The XML has no elements."
  | some document =>
    let rowNodes := document.elements.filter (!·.name.isEmpty)
    let columns := (rowNodes.flatMap fun row => row.elements.map (·.name)).foldl addColumn []
    if rowNodes.isEmpty then .error "The XML has no row elements."
    else if columns.isEmpty then .error "The XML rows have no column elements."
    else .ok (ImportedTable.ofNamedColumns columns
      (rowNodes.map fun row => columns.map (xmlCell row)))

/-! ### Escaped text -/

/-- The character that is read for the one that was written. -/
def cleaned (ch : Char) : Char := if isUnwritable ch then replacementChar else ch

/-- A character that was escaped is decoded. -/
lemma decodeLoop_escapeChar (ch : Char) (rest : Text) :
    decodeLoop (escapeChar false ch ++ rest) = cleaned ch :: decodeLoop rest := by
  unfold escapeChar
  split_ifs with hamp hlt hgt hquot hcr hunwritable
  · subst hamp
    exact decodeLoop_entity rfl
  · subst hlt
    exact decodeLoop_entity rfl
  · subst hgt
    exact decodeLoop_entity rfl
  · exact absurd hquot.2 (by simp)
  · subst hcr
    exact decodeLoop_entity rfl
  · rw [singleton_append, decodeLoop_of_ne (by decide), cleaned, if_pos hunwritable]
  · rw [singleton_append, decodeLoop_of_ne hamp, cleaned, if_neg hunwritable]

lemma decodeLoop_escapeXmlText : decodeLoop (escapeXmlText value) = value.map cleaned := by
  induction value with
  | nil => exact decodeLoop_nil
  | cons ch value ih =>
    rw [escapeXmlText, escapeMarkup, flatMap_cons, decodeLoop_escapeChar, ← escapeMarkup,
      ← escapeXmlText, ih, map_cons]

theorem decodeEntities_escapeXmlText :
    decodeEntities (escapeXmlText value) = value.map cleaned := by
  rw [decodeEntities_eq, decodeLoop_escapeXmlText]

/-- An escaped text has no tag in it. -/
lemma not_mem_escapeXmlText : '<' ∉ escapeXmlText value := by
  intro hmem
  obtain ⟨ch, -, hc⟩ := mem_flatMap.mp hmem
  unfold escapeChar at hc
  split_ifs at hc with hamp hlt hgt hquot hcr hunwritable
  case neg => exact hlt (mem_singleton.mp hc).symm
  all_goals exact absurd hc (by decide)

/-! ### Names -/

lemma suffixed_injective : Function.Injective (suffixed name) := by
  intro a b h
  have hdig := cons_injective (append_cancel_left h)
  calc a = Nat.ofDigitChars 10 (Nat.toDigits 10 a) 0 := Nat.ofDigitChars_ten_toDigits.symm
    _ = Nat.ofDigitChars 10 (Nat.toDigits 10 b) 0 := by rw [hdig]
    _ = b := Nat.ofDigitChars_ten_toDigits

variable {name : Text}

/-- A name that is not free in spite of the search has all names searched taken. -/
lemma suffixed_mem_of_freeName_mem {taken : List Text} {fuel suffix : ℕ}
    (h : freeName taken name fuel suffix ∈ taken) :
    ∀ k ≤ fuel, suffixed name (suffix + k) ∈ taken := by
  induction fuel generalizing suffix with
  | zero =>
    intro k hk
    rw [Nat.le_zero.mp hk]
    exact h
  | succ fuel ih =>
    rw [freeName] at h
    by_cases hmem : suffixed name suffix ∈ taken
    · rw [if_pos hmem] at h
      intro k hk
      cases k with
      | zero => exact hmem
      | succ k =>
        have := ih h k (Nat.le_of_succ_le_succ hk)
        rwa [add_right_comm] at this
    · rw [if_neg hmem] at h
      exact absurd h hmem

/-- The search finds a free name: there are fewer names taken than names searched. -/
lemma freeName_not_mem (name : Text) (suffix : ℕ) :
    freeName taken name taken.length suffix ∉ taken := by
  intro h
  have hmem := suffixed_mem_of_freeName_mem h
  have hnodup : ((range (taken.length + 1)).map fun k => suffixed name (suffix + k)).Nodup :=
    nodup_range.map fun a b hab => Nat.add_left_cancel (suffixed_injective name hab)
  have hsubset : ((range (taken.length + 1)).map fun k => suffixed name (suffix + k)) ⊆ taken := by
    intro text htext
    obtain ⟨k, hk, rfl⟩ := mem_map.mp htext
    exact hmem k (Nat.le_of_lt_succ (mem_range.mp hk))
  have hlen := (hnodup.subperm hsubset).length_le
  rw [length_map, length_range] at hlen
  omega

lemma uniqueName_not_mem (name : Text) : uniqueName taken name ∉ taken := by
  unfold uniqueName
  split_ifs with hmem
  · exact freeName_not_mem taken name 2
  · exact hmem

variable {names : List Text}

/-- An invariant of the names returned so far. -/
lemma uniqueFieldNames_invariant {P : List Text → Prop} (hnil : P [])
    (hstep : ∀ taken, P taken → ∀ name ∈ names, P (taken ++ [uniqueName taken name])) :
    P (uniqueFieldNames names) :=
  foldlRecOn names _ hnil hstep

theorem uniqueFieldNames_nodup (names : List Text) : (uniqueFieldNames names).Nodup := by
  refine uniqueFieldNames_invariant nodup_nil fun taken htaken name _ => ?_
  rw [nodup_append]
  refine ⟨htaken, nodup_singleton _, fun a ha b hb => ?_⟩
  rw [mem_singleton] at hb
  rintro rfl
  exact uniqueName_not_mem taken name (hb ▸ ha)

lemma length_uniqueFieldNames (names : List Text) :
    (uniqueFieldNames names).length = names.length := by
  have hfold : ∀ taken : List Text, (names.foldl
      (fun taken name => taken ++ [uniqueName taken name]) taken).length
        = taken.length + names.length := by
    induction names with
    | nil => intro taken; rfl
    | cons name names ih =>
      intro taken
      rw [foldl_cons, ih, length_append, length_singleton, length_cons]
      omega
  rw [uniqueFieldNames, hfold, length_nil, zero_add]

section

variable [UnicodeClasses]

/-- A text of characters that an element name keeps. -/
structure IsLegalName (name : Text) : Prop where
  ne_nil : name ≠ []
  kept : ∀ ch ∈ name, isKept ch = true

open UnicodeClasses

lemma isKept_of_isDigit {ch : Char} (h : ch.isDigit) : isKept ch := by
  have hascii : ch.toNat < 128 := by
    simp only [Char.isDigit, Bool.and_eq_true, decide_eq_true_eq] at h
    have := UInt32.le_iff_toNat_le.mp h.2
    exact lt_of_le_of_lt this (by decide)
  simp [isKept, isAlphanumeric, isNumeric_ascii ch hascii, h]

lemma isKept_of_isAlpha {ch : Char} (hascii : ch.toNat < 128) (h : ch.isAlpha) : isKept ch := by
  simp [isKept, isAlphanumeric, isAlphabetic_ascii ch hascii, h]

lemma isKept_of_mem_toDigits {n : ℕ} : ∀ ch ∈ Nat.toDigits 10 n, isKept ch :=
  fun _ hch => isKept_of_isDigit (Nat.isDigit_of_mem_toDigits (by decide) le_rfl hch)

lemma isKept_underscore : isKept '_' := by simp [isKept]

lemma IsLegalName.suffixed (h : IsLegalName name) (suffix : ℕ) :
    IsLegalName (Transfer.suffixed name suffix) where
  ne_nil := by simp [Transfer.suffixed]
  kept := by
    rw [Transfer.suffixed, forall_mem_append, forall_mem_cons]
    exact ⟨h.kept, isKept_underscore, isKept_of_mem_toDigits⟩

lemma IsLegalName.freeName (h : IsLegalName name) (taken : List Text) (fuel suffix : ℕ) :
    IsLegalName (Transfer.freeName taken name fuel suffix) := by
  induction fuel generalizing suffix with
  | zero => exact h.suffixed suffix
  | succ fuel ih =>
    rw [Transfer.freeName]
    split_ifs
    · exact ih (suffix + 1)
    · exact h.suffixed suffix

lemma IsLegalName.uniqueName (h : IsLegalName name) (taken : List Text) :
    IsLegalName (Transfer.uniqueName taken name) := by
  unfold Transfer.uniqueName
  split_ifs
  · exact h.freeName taken _ _
  · exact h

lemma isLegalName_xmlElementName (column : Text) (index : ℕ) :
    IsLegalName (xmlElementName column index) := by
  unfold xmlElementName
  dsimp only
  split_ifs with hunusable
  · refine ⟨by simp, ?_⟩
    have hletters : ∀ ch ∈ "column".toList, isKept ch := by
      intro ch hch
      have hascii : ("column".toList.all fun ch => ch.toNat < 128 && ch.isAlpha) := by decide
      have hch := all_eq_true.mp hascii ch hch
      rw [Bool.and_eq_true, decide_eq_true_eq] at hch
      exact isKept_of_isAlpha hch.1 hch.2
    rw [show "column_".toList = "column".toList ++ ['_'] by decide, forall_mem_append,
      forall_mem_append, forall_mem_singleton]
    exact ⟨⟨hletters, isKept_underscore⟩, isKept_of_mem_toDigits⟩
  · refine ⟨fun hnil => hunusable ?_, fun ch hch => ?_⟩
    · rw [hnil]
      rfl
    · obtain ⟨ch', -, rfl⟩ := mem_map.mp hch
      split_ifs with hkept
      · exact hkept
      · exact isKept_underscore

lemma isLegalName_of_mem_xmlNames (grid : ExportGrid) :
    ∀ name ∈ grid.xmlNames, IsLegalName name := by
  refine uniqueFieldNames_invariant (P := fun names => ∀ name ∈ names, IsLegalName name)
    (by simp) fun taken htaken name hname => ?_
  rw [forall_mem_append, forall_mem_singleton]
  refine ⟨htaken, IsLegalName.uniqueName ?_ taken⟩
  obtain ⟨index, hidx, rfl⟩ := mem_iff_getElem.mp hname
  rw [getElem_mapIdx]
  exact isLegalName_xmlElementName _ _

lemma length_xmlNames (grid : ExportGrid) : grid.xmlNames.length = grid.columns.length := by
  rw [ExportGrid.xmlNames, length_uniqueFieldNames, length_mapIdx]

/-- The classes as Unicode has them: white space is neither a letter nor a number. -/
def LettersAreNotWhitespace : Prop :=
  ∀ ch : Char, isAlphanumeric ch = true → isWhitespace ch = false

/-- The characters with a meaning in a tag. -/
def specialChars : Text := ['/', '!', '?', '<', '>', '"', '\'']

/-- A legal name is read as the name of a tag. -/
lemma IsLegalName.isTagName (hclasses : LettersAreNotWhitespace)
    (h : IsLegalName name) : IsTagName name where
  ne_nil := h.ne_nil
  chars := by
    intro ch hch
    have hkept := h.kept ch hch
    -- the characters with a meaning in a tag are ASCII, and neither letters nor digits
    have hplain : ∀ special ∈ specialChars, ch ≠ special := by
      rintro special hspecial rfl
      have hascii : (specialChars.all fun c => c.toNat < 128 && !c.isAlpha && !c.isDigit
          && c != '_' && c != '-' && c != '.') := by decide
      have hch := all_eq_true.mp hascii ch hspecial
      simp only [Bool.and_eq_true, decide_eq_true_eq, Bool.not_eq_true', bne_iff_ne] at hch
      obtain ⟨⟨⟨⟨⟨hlt, halpha⟩, hdigit⟩, hunderscore⟩, hdash⟩, hpoint⟩ := hch
      simp [isKept, isAlphanumeric, isAlphabetic_ascii ch hlt,
        isNumeric_ascii ch hlt, halpha, hdigit, hunderscore, hdash, hpoint] at hkept
    have hspace : isWhitespace ch = false := by
      simp only [isKept, Bool.or_eq_true, beq_iff_eq] at hkept
      obtain ((hword | rfl) | rfl) | rfl := hkept
      · exact hclasses ch hword
      all_goals decide
    simp only [specialChars, forall_mem_cons] at hplain
    simp [isNameChar, isTagChar, hspace, hplain]

end

/-! ### The exported grid, as the reader sees it -/

/-- The element that is read for a cell. -/
@[simp] def xmlCellNode (name : Text) : Cell → MarkupNode
  | none => ⟨name, true, []⟩
  | some value =>
    ⟨name, false, if isVoid name || value.isEmpty then [] else [.text (value.map cleaned)]⟩

/-- An element that no tag of a column closes. -/
structure IsFrame (node : MarkupNode) : Prop where
  staysOpen : staysOpen node = true
  notVoid : isVoid node.name = false

variable {node : MarkupNode}

lemma IsFrame.of_extends {node' : MarkupNode} {children : List MarkupNode}
    (h : node.Extends node' children) (hframe : IsFrame node) : IsFrame node' where
  staysOpen := h.staysOpen.trans hframe.staysOpen
  notVoid := by rw [h.name, hframe.notVoid]

lemma isVoid_of_sameName {other : Text} (h : sameName name other) : isVoid name = isVoid other := by
  unfold isVoid sameName eqIgnoreAsciiCase asciiUppercase
  rw [sameName_iff.mp h]

lemma IsFrame.is_eq_false (h : IsFrame node) (hvoid : isVoid name) : node.is name = false := by
  rw [Bool.eq_false_iff]
  intro hsame
  rw [← isVoid_of_sameName hsame, h.notVoid] at hvoid
  exact Bool.false_ne_true hvoid

open MarkupNode

open MarkupState hiding pushText

/-- The text of a cell between its tags, read to its element. -/
lemma closeTag_cell (hvoid : isVoid name = false) (value : Text) (roots stack : List MarkupNode) :
    (MarkupState.pushText ⟨roots, ⟨name, false, []⟩ :: stack⟩ (value.map cleaned)).closeTag name
      = finish ⟨roots, stack⟩ (xmlCellNode name (some value)) := by
  have hpush : (⟨name, false, []⟩ : MarkupNode).pushText (value.map cleaned)
      = xmlCellNode name (some value) := by
    cases value with
    | nil => simp [pushText]
    | cons ch value => simp [pushText, hvoid]
  have hst : MarkupState.pushText ⟨roots, ⟨name, false, []⟩ :: stack⟩ (value.map cleaned)
      = ⟨roots, xmlCellNode name (some value) :: stack⟩ := by
    rw [← hpush]
    rfl
  rw [hst]
  exact closeTag_top roots stack (xmlCellNode name (some value))

/-- Where only frames are open, the text is read into the innermost one, as elements of which `P`
holds. -/
def ReadsInto (text : Text) (P : List MarkupNode → Prop) : Prop :=
  ∀ rest roots stack top, (∀ node ∈ top :: stack, IsFrame node) →
    ∃ top' nodes, top.Extends top' nodes ∧ P nodes ∧
      markupLoop (text ++ rest) ⟨roots, top :: stack⟩ = markupLoop rest ⟨roots, top' :: stack⟩

namespace ReadsInto

variable {text text' : Text} {P P' Q : List MarkupNode → Prop}

lemma between (htag : '<' ∉ text) (hamp : '&' ∉ text) : ReadsInto text (· = []) :=
  fun rest _ _ top _ => ⟨_, [], top.extends_pushText text, rfl, markupLoop_plain htag hamp rest _⟩

lemma append (h : ReadsInto text P) (h' : ReadsInto text' P')
    (hnodes : ∀ nodes nodes', P nodes → P' nodes' → Q (nodes ++ nodes')) :
    ReadsInto (text ++ text') Q := by
  intro rest roots stack top hframes
  obtain ⟨top₁, nodes, hext, hP, hloop⟩ := h (text' ++ rest) roots stack top hframes
  rw [forall_mem_cons] at hframes
  obtain ⟨top₂, nodes', hext', hP', hloop'⟩ := h' rest roots stack top₁
    (forall_mem_cons.mpr ⟨hframes.1.of_extends hext, hframes.2⟩)
  refine ⟨top₂, _, hext.trans hext', hnodes _ _ hP hP', ?_⟩
  rw [append_assoc, hloop, hloop']

/-- White space around an element is not read as one. -/
lemma line {indent stop : Text} (h : ReadsInto text P) (hindent : ReadsInto indent (· = []))
    (hstop : ReadsInto stop (· = [])) : ReadsInto (indent ++ (text ++ stop)) P := by
  refine hindent.append (h.append (Q := P) hstop ?_) ?_
  · rintro nodes _ hP rfl
    rwa [append_nil]
  · rintro _ nodes rfl hP
    exact hP

lemma flatMap {α : Type} {as : List α} {f : α → Text} {P : α → List MarkupNode → Prop}
    {Q : List α → List MarkupNode → Prop} (h : ∀ a ∈ as, ReadsInto (f a) (P a)) (hnil : Q [] [])
    (hcons : ∀ a as nodes nodes', P a nodes → Q as nodes' → Q (a :: as) (nodes ++ nodes')) :
    ReadsInto (as.flatMap f) (Q as) := by
  induction as with
  | nil => exact fun _ _ _ top _ => ⟨top, [], ⟨rfl, rfl, (append_nil _).symm⟩, hnil, rfl⟩
  | cons a as ih =>
    rw [forall_mem_cons] at h
    rw [flatMap_cons]
    exact h.1.append (ih h.2) (hcons a as)

/-- A frame with its children is finished at its close tag. -/
lemma element (h : ReadsInto text P) (hname : IsTagName name)
    (hframe : ∀ node : MarkupNode, node.name = name → IsFrame node) (rest : Text) (st : MarkupState)
    (hst : ∀ node ∈ st.stack, IsFrame node) :
    ∃ node, node.name = name ∧ P node.elements ∧
      markupLoop ('<' :: (name ++ '>' :: (text ++ '<' :: '/' :: (name ++ '>' :: rest)))) st
        = markupLoop rest (st.finish node) := by
  have hnew := hframe ⟨name, false, []⟩ rfl
  obtain ⟨node, nodes, hext, hP, hloop⟩ := h ('<' :: '/' :: (name ++ '>' :: rest)) st.roots st.stack
    _ (forall_mem_cons.mpr ⟨hnew, hst⟩)
  refine ⟨node, hext.name, ?_, ?_⟩
  · rw [hext.elements]
    simpa [elements] using hP
  · have hclose : closeTag ⟨st.roots, node :: st.stack⟩ name = st.finish node := by
      have htop := closeTag_top st.roots st.stack node
      rwa [hext.name] at htop
    rw [markupLoop_openTag hname _ fun node hnode => (hst node hnode).staysOpen,
      if_neg (by simpa using hnew.notVoid), hloop, markupLoop_closeTag hname, hclose]

end ReadsInto

open ReadsInto

lemma readsInto_indent : ReadsInto cellIndent (· = []) ∧ ReadsInto rowIndent (· = []) ∧
    ReadsInto ['\n'] (· = []) :=
  ⟨between (by decide) (by decide), between (by decide) (by decide),
    between (by decide) (by decide)⟩

/-- A cell that was written is read as an element of its row. -/
lemma readsInto_cell (hname : IsTagName name) (cell : Cell) :
    ReadsInto (renderXmlCell name cell) (· = [xmlCellNode name cell]) := by
  cases cell with
  | none =>
    have hnull : ReadsInto ('<' :: (name ++ ['/', '>'])) (· = [xmlCellNode name none]) := by
      intro rest roots stack top hframes
      refine ⟨_, _, extends_pushElement top _, rfl, ?_⟩
      rw [cons_append, append_assoc]
      exact markupLoop_selfClosing hname rest fun node hnode => (hframes node hnode).staysOpen
    have hline := hnull.line readsInto_indent.1 readsInto_indent.2.2
    rwa [cons_append, append_assoc] at hline
  | some value =>
    have hvalue : ReadsInto ('<' :: (name ++ '>' :: (escapeXmlText value ++ '<' :: '/' ::
        (name ++ ['>'])))) (· = [xmlCellNode name (some value)]) := by
      intro rest roots stack top hframes
      have hhead : ∀ c ∈ ('<' :: '/' :: (name ++ '>' :: rest)).head?, c = '<' := by simp
      simp only [cons_append, append_assoc, nil_append]
      rw [markupLoop_openTag hname _ fun node hnode => (hframes node hnode).staysOpen,
        markupLoop_text (not_mem_escapeXmlText value) hhead, decodeEntities_escapeXmlText,
        markupLoop_closeTag hname]
      cases hvoid : isVoid name with
      | true =>
        -- the text of the cell is text of the row, and the close tag closes nothing
        have hcell : xmlCellNode name (some value) = ⟨name, false, []⟩ := by
          simp [hvoid]
        have hext := (extends_pushElement top ⟨name, false, []⟩).trans
          (extends_pushText _ (value.map cleaned))
        refine ⟨_, _, hext, by rw [hcell, append_nil], ?_⟩
        rw [forall_mem_cons] at hframes
        rw [if_pos rfl, closeTag_eq_self]
        · rfl
        · exact forall_mem_cons.mpr ⟨(hframes.1.of_extends hext).is_eq_false hvoid,
            fun node hnode => (hframes.2 node hnode).is_eq_false hvoid⟩
      | false =>
        refine ⟨_, _, extends_pushElement top _, rfl, ?_⟩
        rw [if_neg Bool.false_ne_true, closeTag_cell hvoid]
        rfl
    have hline := hvalue.line readsInto_indent.1 readsInto_indent.2.2
    simp only [cons_append, append_assoc, nil_append] at hline
    exact hline

/-- The elements that are read for the cells of a row. -/
def xmlCellNodes (entries : List (Text × ℕ)) (row : List Cell) : List MarkupNode :=
  entries.map fun (name, index) => xmlCellNode name (ExportGrid.cell row index)

lemma isTagName_rowName : IsTagName rowName := ⟨by decide, all_eq_true.mp (by decide)⟩

lemma isTagName_resultsName : IsTagName resultsName :=
  ⟨by decide, all_eq_true.mp (by decide)⟩

/-- The rows and the document are no elements of HTML. -/
lemma isFrame_of_name (h : node.name = rowName ∨ node.name = resultsName) : IsFrame node := by
  constructor
  · unfold staysOpen is
    obtain h | h := h <;> rw [h] <;> decide
  · obtain h | h := h <;> rw [h] <;> decide

/-- What is read for the rows of a grid: their elements are those of their cells. -/
structure ReadRows (names : List Text) (rows : List (List Cell)) (nodes : List MarkupNode) :
    Prop where
  name : ∀ node ∈ nodes, node.name = rowName
  elements : nodes.map elements = rows.map (xmlCellNodes names.zipIdx)

/-- A row that was written is read as an element of the document. -/
lemma readsInto_row (hnames : ∀ name ∈ names, IsTagName name) (row : List Cell) :
    ReadsInto (renderXmlRow names row) (ReadRows names [row]) := by
  have hcells : ReadsInto (names.zipIdx.flatMap fun (name, index) =>
      renderXmlCell name (cell row index)) (· = xmlCellNodes names.zipIdx row) := by
    refine flatMap (Q := fun entries nodes => nodes = xmlCellNodes entries row)
      (fun entry hentry => readsInto_cell (hnames _ (fst_mem_of_mem_zipIdx hentry)) _) rfl ?_
    rintro entry entries _ _ rfl rfl
    rfl
  have hrow : ReadsInto ('<' :: (rowName ++ '>' :: (['\n'] ++ ((names.zipIdx.flatMap
      fun (name, index) => renderXmlCell name (cell row index)) ++ rowIndent) ++
      '<' :: '/' :: (rowName ++ ['>'])))) (ReadRows names [row]) := by
    intro rest roots stack top hframes
    obtain ⟨node, hname, helements, hloop⟩ :=
      (hcells.line readsInto_indent.2.2 readsInto_indent.2.1).element isTagName_rowName
        (fun _ h => isFrame_of_name (.inl h)) rest ⟨roots, top :: stack⟩ hframes
    refine ⟨_, _, extends_pushElement top node, ⟨by simpa using hname, ?_⟩, ?_⟩
    · simpa using helements
    simp only [cons_append, append_assoc, nil_append] at hloop ⊢
    exact hloop
  have hline := hrow.line readsInto_indent.2.1 readsInto_indent.2.2
  simp only [cons_append, append_assoc, nil_append] at hline
  simpa [renderXmlRow] using hline

/-- Text outside the document is dropped. -/
lemma markupLoop_outside (rest : Text) (roots : List MarkupNode) :
    markupLoop ('\n' :: rest) ⟨roots, []⟩ = markupLoop rest ⟨roots, []⟩ :=
  have hbreak : '<' ∉ ['\n'] ∧ '&' ∉ ['\n'] := by decide
  markupLoop_plain hbreak.1 hbreak.2 rest _

/-- The markup of a grid is one document, with its rows. -/
lemma parseMarkup_renderXml [UnicodeClasses] (hclasses : LettersAreNotWhitespace)
    (grid : ExportGrid) :
    ∃ document, parseMarkup (renderXml grid) = [document] ∧ document.name = resultsName ∧
      ReadRows grid.xmlNames grid.rows document.elements := by
  have hnames : ∀ name ∈ grid.xmlNames, IsTagName name := fun name hname =>
    (isLegalName_of_mem_xmlNames grid name hname).isTagName hclasses
  have hrows : ReadsInto (grid.rows.flatMap (renderXmlRow grid.xmlNames))
      (ReadRows grid.xmlNames grid.rows) := by
    refine flatMap (fun row _ => readsInto_row hnames row) ⟨nofun, rfl⟩ ?_
    intro row rows nodes nodes' hrow hrest
    refine ⟨forall_mem_append.mpr ⟨hrow.name, hrest.name⟩, ?_⟩
    rw [map_append, hrow.elements, hrest.elements]
    rfl
  obtain ⟨document, hname, hread, hloop⟩ :=
    (readsInto_indent.2.2.append (Q := ReadRows grid.xmlNames grid.rows) hrows
      (by rintro _ _ rfl h; exact h)).element isTagName_resultsName
      (fun _ h => isFrame_of_name (.inr h)) ['\n'] ⟨[], []⟩ nofun
  refine ⟨document, ?_, hname, hread⟩
  have htext : renderXml grid = '<' :: '?' :: (xmlDeclaration ++ '>' :: '\n' ::
      ('<' :: (resultsName ++ '>' :: (['\n'] ++ grid.rows.flatMap (renderXmlRow grid.xmlNames) ++
        '<' :: '/' :: (resultsName ++ ['>', '\n']))))) := by
    simp [renderXml]
  have hfinish : MarkupState.finish ⟨[], []⟩ document = ⟨[document], []⟩ := rfl
  rw [parseMarkup, htext, markupLoop_instruction (by decide), markupLoop_outside, hloop, hfinish,
    markupLoop_outside, markupLoop_nil]
  rfl

/-! ### The table is read back -/

lemma foldl_addColumn_of_subset {columns : List Text} (h : ∀ name ∈ names, name ∈ columns) :
    names.foldl addColumn columns = columns := by
  induction names with
  | nil => rfl
  | cons name names ih =>
    rw [forall_mem_cons] at h
    rw [foldl_cons, addColumn, if_pos (contains_iff_mem.mpr h.1), ih h.2]

lemma foldl_addColumn_of_nodup {columns : List Text} (h : (columns ++ names).Nodup) :
    names.foldl addColumn columns = columns ++ names := by
  induction names generalizing columns with
  | nil => rw [foldl_nil, append_nil]
  | cons name names ih =>
    have hnot : ¬ columns.contains name := by
      rw [contains_iff_mem]
      intro hmem
      exact (nodup_append.mp h).2.2 name hmem name mem_cons_self rfl
    rw [foldl_cons, addColumn, if_neg hnot, ih (by simpa using h), append_assoc, singleton_append]

/-- The columns of rows that all have the same names. -/
lemma foldl_addColumn_rows (hnames : names.Nodup) {rows : List (List Cell)}
    (hrows : rows ≠ []) : (rows.flatMap fun _ => names).foldl addColumn [] = names := by
  obtain ⟨row, rows, rfl⟩ := exists_cons_of_ne_nil hrows
  have hfirst : names.foldl addColumn [] = names := foldl_addColumn_of_nodup hnames
  rw [flatMap_cons, foldl_append, hfirst]
  refine foldl_addColumn_of_subset fun name hname => ?_
  obtain ⟨-, -, hname⟩ := mem_flatMap.mp hname
  exact hname

/-- The value that is read for a cell: a void element has none. -/
def readCell (name : Text) (cell : Cell) : Cell :=
  cell.map fun value => if isVoid name then [] else value.map cleaned

lemma xmlValue_xmlCellNode (name : Text) (cell : Cell) :
    xmlValue (xmlCellNode name cell) = readCell name cell := by
  cases cell with
  | none => rfl
  | some value =>
    cases hvoid : isVoid name <;> cases value <;>
      simp [xmlValue, readCell, hvoid, allText, allTextOf]

lemma xmlCellNode_name (name : Text) (cell : Cell) : (xmlCellNode name cell).name = name := by
  cases cell <;> rfl

/-- The first cell of a row in a column. -/
lemma xmlValue_xmlCellNodes (entries : List (Text × ℕ)) (row : List Cell) (column : Text) :
    ((xmlCellNodes entries row).filter (·.is column)).head?.bind xmlValue
      = (entries.find? fun entry => sameName entry.1 column).bind
        fun entry => readCell entry.1 (cell row entry.2) := by
  have hname : ((·.is column) ∘ fun entry : Text × ℕ =>
      xmlCellNode entry.1 (cell row entry.2)) = fun entry => sameName entry.1 column :=
    funext fun entry => by rw [Function.comp_apply, is, xmlCellNode_name]
  rw [head?_filter, xmlCellNodes, find?_map, hname]
  cases entries.find? fun entry => sameName entry.1 column with
  | none => rfl
  | some entry => exact xmlValue_xmlCellNode entry.1 _

/-- The cells that are read for a row. -/
def readCells (names : List Text) (row : List Cell) : List Cell :=
  names.map fun column => (names.zipIdx.find? fun entry => sameName entry.1 column).bind
    fun entry => readCell entry.1 (cell row entry.2)

lemma map_name_xmlCellNodes (names : List Text) (row : List Cell) :
    (xmlCellNodes names.zipIdx row).map (·.name) = names := by
  have hname : ((·.name) ∘ fun entry : Text × ℕ =>
      xmlCellNode entry.1 (ExportGrid.cell row entry.2)) = Prod.fst := by
    funext entry
    exact xmlCellNode_name _ _
  rw [xmlCellNodes, map_map, hname, zipIdx_map_fst]

section

variable [UnicodeClasses]

/-- What the reader makes of an exported grid. -/
theorem parseXml_renderXml (hclasses : LettersAreNotWhitespace) {grid : ExportGrid}
    (hrows : grid.rows ≠ []) (hcols : grid.columns ≠ []) :
    parseXml (renderXml grid)
      = .ok ⟨grid.xmlNames, grid.rows.map (readCells grid.xmlNames), true⟩ := by
  obtain ⟨document, hparse, hname, hread⟩ := parseMarkup_renderXml hclasses grid
  have hfind : (parseMarkup (renderXml grid)).find? (!·.name.isEmpty) = some document := by
    rw [hparse, find?_singleton, hname, if_pos (by decide)]
  have hfilter : document.elements.filter (!·.name.isEmpty) = document.elements := by
    refine filter_eq_self.mpr fun node hnode => ?_
    rw [hread.name node hnode]
    decide
  have hcollect : (document.elements.flatMap fun row => row.elements.map (·.name)).foldl
      addColumn [] = grid.xmlNames := by
    have hflat : (document.elements.flatMap fun row => row.elements.map (·.name))
        = grid.rows.flatMap fun _ => grid.xmlNames := by
      rw [← flatMap_map elements, hread.elements, flatMap_map]
      exact congrArg (grid.rows.flatMap ·) (funext fun row => map_name_xmlCellNodes _ row)
    rw [hflat]
    exact foldl_addColumn_rows (uniqueFieldNames_nodup _) hrows
  have hcells : (document.elements.map fun row => grid.xmlNames.map (xmlCell row))
      = grid.rows.map (readCells grid.xmlNames) := by
    have hxml : (fun row : MarkupNode => grid.xmlNames.map (xmlCell row))
        = (fun nodes : List MarkupNode => grid.xmlNames.map fun column =>
          (nodes.filter (·.is column)).head?.bind xmlValue) ∘ elements := rfl
    rw [hxml, ← map_map, hread.elements, map_map]
    exact map_congr_left fun row _ => map_congr_left fun column _ =>
      xmlValue_xmlCellNodes _ row column
  have hnodes : document.elements ≠ [] := by
    rw [← length_pos_iff, ← length_map elements, hread.elements, length_map]
    exact length_pos_iff.mpr hrows
  have hnames : grid.xmlNames ≠ [] := by
    rw [← length_pos_iff, length_xmlNames]
    exact length_pos_iff.mpr hcols
  rw [parseXml, hfind]
  dsimp only
  rw [hfilter, hcollect, if_neg (by simp [hnodes]), if_neg (by simp [hnames]), hcells]
  rfl

/-- The table of an exported grid is valid. -/
lemma parse_renderXml (hclasses : LettersAreNotWhitespace) {grid : ExportGrid}
    (hrows : grid.rows ≠ []) (hcols : grid.columns ≠ []) :
    parse parseXml (renderXml grid)
      = .ok ⟨grid.xmlNames, grid.rows.map (readCells grid.xmlNames), true⟩ := by
  have hmark : (stripPrefix [byteOrderMark] (renderXml grid)).getD (renderXml grid)
      = renderXml grid := by
    have hstrip : stripPrefix [byteOrderMark] (renderXml grid) = none :=
      stripPrefix_singleton_of_ne (by decide) _
    rw [hstrip, getD_none]
  rw [parse, hmark, parseXml_renderXml hclasses hrows hcols]
  refine validate_of_width ?_ ?_ ?_
  · rw [← length_pos_iff, length_xmlNames]
    exact length_pos_iff.mpr hcols
  · intro name hname
    have htag := (isLegalName_of_mem_xmlNames grid name hname).isTagName hclasses
    rw [trim_eq_self htag.notWhitespace]
    exact htag.ne_nil
  · intro row hrow
    obtain ⟨cells, -, rfl⟩ := mem_map.mp hrow
    rw [readCells, length_map]

/-- The table of a grid: its element names, and its cells with the characters that XML cannot
write replaced. -/
def ExportGrid.xmlTable (grid : ExportGrid) : ImportedTable where
  columns := grid.xmlNames
  rows := grid.rows.map fun row =>
    (range grid.columns.length).map fun index =>
      (ExportGrid.cell row index).map (·.map cleaned)
  fileNamedTheColumns := true

/-- Columns with the same name up to ASCII case have the same value in the row, and columns
with the name of a void element have none: they are NULL or empty. -/
structure KeepsApart (names : List Text) (row : List Cell) : Prop where
  sameValue : ∀ i j, (hi : i < names.length) → (hj : j < names.length) →
    sameName names[i] names[j] = true →
    (ExportGrid.cell row i).map (·.map cleaned) = (ExportGrid.cell row j).map (·.map cleaned)
  void : ∀ j, (hj : j < names.length) → isVoid names[j] = true →
    ∀ value ∈ ExportGrid.cell row j, value = []

omit [UnicodeClasses] in
/-- The column that is read for a column: the first one with its name, up to ASCII case. -/
lemma exists_first (names : List Text) {j : ℕ} (hj : j < names.length) :
    ∃ i, ∃ hi : i < names.length, sameName names[i] names[j] ∧
      (names.zipIdx.find? fun entry => sameName entry.1 names[j]) = some (names[i], i) := by
  have hmem : (names[j], j) ∈ names.zipIdx := by
    rw [mk_mem_zipIdx_iff_getElem?, getElem?_eq_getElem hj]
  have hsome : (names.zipIdx.find? fun entry => sameName entry.1 names[j]).isSome :=
    find?_isSome.mpr ⟨_, hmem, sameName_refl _⟩
  obtain ⟨⟨name, i⟩, hfind⟩ := isSome_iff_exists.mp hsome
  have hentry := mem_of_find?_eq_some hfind
  rw [mk_mem_zipIdx_iff_getElem?] at hentry
  obtain ⟨hi, hname⟩ := List.getElem?_eq_some_iff.mp hentry
  subst hname
  have hsame := find?_some hfind
  exact ⟨i, hi, hsame, hfind⟩

omit [UnicodeClasses] in
lemma readCells_eq_iff_forall (names : List Text) (row : List Cell) :
    readCells names row = ((range names.length).map fun index =>
        (ExportGrid.cell row index).map (·.map cleaned)) ↔
      ∀ j, (hj : j < names.length) →
        ((names.zipIdx.find? fun entry => sameName entry.1 names[j]).bind
          fun entry => readCell entry.1 (ExportGrid.cell row entry.2))
          = (ExportGrid.cell row j).map (·.map cleaned) := by
  rw [readCells, ext_getElem_iff]
  simp

omit [UnicodeClasses] in
lemma readCells_eq_iff (names : List Text) (row : List Cell) :
    readCells names row = ((range names.length).map fun index =>
      (ExportGrid.cell row index).map (·.map cleaned)) ↔ KeepsApart names row := by
  rw [readCells_eq_iff_forall]
  constructor
  · intro h
    refine ⟨fun i j hi hj hsame => ?_, fun j hj hvoid value hval => ?_⟩
    · -- the same column is read for both
      have hfun : (fun entry : Text × ℕ => sameName entry.1 names[i])
          = fun entry => sameName entry.1 names[j] := by
        funext entry
        unfold sameName eqIgnoreAsciiCase
        simp only [asciiUppercase, String.toList_ofList, sameName_iff.mp hsame]
      rw [← h i hi, ← h j hj, hfun]
    · obtain ⟨i, hi, hsame, hfind⟩ := exists_first names hj
      have hread := h j hj
      rw [hfind, bind_some, readCell, mem_def.mp hval, map_some, map_eq_some_iff] at hread
      obtain ⟨other, -, hnil⟩ := hread
      rw [isVoid_of_sameName hsame, if_pos hvoid] at hnil
      exact map_eq_nil_iff.mp hnil.symm
  · intro h j hj
    obtain ⟨i, hi, hsame, hfind⟩ := exists_first names hj
    rw [hfind, bind_some, ← h.sameValue i j hi hj hsame, readCell]
    cases hvoid : isVoid names[i] with
    | false => rfl
    | true =>
      refine map_congr fun value hval => ?_
      rw [if_pos rfl, h.void i hi hvoid value hval, map_nil]

theorem parse_renderXml_iff (hclasses : LettersAreNotWhitespace) {grid : ExportGrid}
    (hrows : grid.rows ≠ []) (hcolumns : grid.columns ≠ []) :
    parse parseXml (renderXml grid) = .ok grid.xmlTable ↔
      ∀ row ∈ grid.rows, KeepsApart grid.xmlNames row := by
  rw [parse_renderXml hclasses hrows hcolumns, Except.ok.injEq, ExportGrid.xmlTable,
    ImportedTable.mk.injEq, ← length_xmlNames]
  simp only [true_and, and_true, map_inj_left, readCells_eq_iff]

end

lemma lettersAreNotWhitespace_ascii : @LettersAreNotWhitespace asciiClasses := fun _ h =>
  isWhitespace_of_isAlphanum h

/-- Values with every kind of character, and names that have to be made legal and unique. -/
def exampleXmlGrid : ExportGrid where
  columns := ["ID".toList, "ID".toList, "COUNT(*)".toList, [], "td".toList]
  rows := [[some "1".toList, none, some [], some "a<b>&\r\n\t".toList, some [Char.ofNat 1]],
    [some "2".toList]]
  nullText := "NULL".toList

theorem parse_renderXml_exampleXmlGrid :
    (∀ row ∈ exampleXmlGrid.rows, KeepsApart (@ExportGrid.xmlNames asciiClasses exampleXmlGrid) row)
      ∧ parse parseXml (@renderXml asciiClasses exampleXmlGrid)
        = .ok (@ExportGrid.xmlTable asciiClasses exampleXmlGrid) := by
  have hread : ∀ row ∈ exampleXmlGrid.rows,
      readCells (@ExportGrid.xmlNames asciiClasses exampleXmlGrid) row
        = (range (@ExportGrid.xmlNames asciiClasses exampleXmlGrid).length).map
          fun index => (ExportGrid.cell row index).map (·.map cleaned) := by
    decide +kernel
  have hkeeps := fun row hrow => (readCells_eq_iff _ row).mp (hread row hrow)
  exact ⟨hkeeps, (@parse_renderXml_iff asciiClasses lettersAreNotWhitespace_ascii exampleXmlGrid
    (by decide) (by decide)).mpr hkeeps⟩

/-- Two columns whose names differ only in case. -/
def caseGrid : ExportGrid := ⟨["A".toList, "a".toList], [[some "1".toList, some "2".toList]], []⟩

/-- A column with the name of a void element. -/
def voidGrid : ExportGrid := ⟨["col".toList], [[some "x".toList]], []⟩

theorem xml_values_lost : parse parseXml (@renderXml asciiClasses caseGrid)
        = .ok ⟨["A".toList, "a".toList], [[some "1".toList, some "1".toList]], true⟩
      ∧ parse parseXml (@renderXml asciiClasses caseGrid)
        ≠ .ok (@ExportGrid.xmlTable asciiClasses caseGrid)
      ∧ parse parseXml (@renderXml asciiClasses voidGrid) = .ok ⟨["col".toList], [[some []]], true⟩
      ∧ parse parseXml (@renderXml asciiClasses voidGrid)
        ≠ .ok (@ExportGrid.xmlTable asciiClasses voidGrid) := by
  have hcase := @parse_renderXml asciiClasses lettersAreNotWhitespace_ascii caseGrid
    (by decide) (by decide)
  have hvoid := @parse_renderXml asciiClasses lettersAreNotWhitespace_ascii voidGrid
    (by decide) (by decide)
  rw [hcase, hvoid]
  decide +kernel

end SpaceQuery.Transfer
