import SpaceQuery.Transfer.Table

/-!
The tolerant markup reader of `ui/result_import.rs`: `parse_markup`, `decode_entities` and the
tree that the XML and the HTML reader share.

The reader keeps the elements that are open on a stack. Text goes to the innermost of them, a close
tag closes everything up to the innermost element of its name, and some elements are never open:
void ones and those written `<name/>`.
-/

namespace SpaceQuery.Transfer

open Prod List RustText

open Bool hiding not_or

open Option hiding all all_eq_true

/-! ### Entities -/

def maxEntityBody : ℕ := 10

/-- The number of bytes of a text. -/
def byteLength (text : Text) : ℕ := (text.map Char.utf8Size).sum

/-- The entity that starts the text, up to the `;` that closes it: what is between the two, and
the text behind. The bound is on the offset of the `;` in bytes. -/
def entityTerminator (text : Text) : Option (Text × Text) :=
  match (text.take (maxEntityBody + 1)).findIdx? (· = ';') with
  | none => none
  | some index =>
    if byteLength (text.take index) ≤ maxEntityBody then
      some ((text.take index).drop 1, text.drop (index + 1))
    else none

/-- The value of a digit of `u32::from_str_radix`. -/
def digitValue (radix : ℕ) (c : Char) : Option ℕ :=
  let value :=
    if c.isDigit then some (c.toNat - '0'.toNat)
    else if c.isAlpha then some (c.toLower.toNat - 'a'.toNat + 10)
    else none
  value.filter (· < radix)

/-- `u32::from_str_radix`. -/
def fromStrRadix (radix : ℕ) (text : Text) : Option ℕ :=
  let digits := (stripPrefix ['+'] text).getD text
  if digits = [] then none
  else
    (digits.mapM (digitValue radix)).bind fun values =>
      let n := values.foldl (fun n d => n * radix + d) 0
      if n < 2 ^ 32 then some n else none

/-- `char::from_u32`. -/
def charFromU32 (n : ℕ) : Option Char := if n.isValidChar then some (Char.ofNat n) else none

def resolveEntity (entity : Text) : Option Char :=
  if entity = "amp".toList then some '&'
  else if entity = "lt".toList then some '<'
  else if entity = "gt".toList then some '>'
  else if entity = "quot".toList then some '"'
  else if entity = "apos".toList then some '\''
  else if entity = "nbsp".toList then some (Char.ofNat 0xA0)
  else
    match entity with
    | '#' :: 'x' :: hex => (fromStrRadix 16 hex).bind charFromU32
    | '#' :: 'X' :: hex => (fromStrRadix 16 hex).bind charFromU32
    | '#' :: number => (fromStrRadix 10 number).bind charFromU32
    | _ => none

/-- The character that an entity at the start of the text stands for, with the text behind. -/
def leadingEntity (text : Text) : Option (Char × Text) :=
  (entityTerminator text).bind fun (entity, rest) =>
    (resolveEntity entity).map fun ch => (ch, rest)

/-- The next character of the decoded text, with the text behind what it was read from. -/
def decodeStep (c : Char) (rest : Text) : Char × Text :=
  if c = '&' then (leadingEntity (c :: rest)).getD (c, rest) else (c, rest)

variable {text : Text} {rest : Text}

lemma length_of_leadingEntity {ch : Char} (h : leadingEntity text = some (ch, rest))
    (htext : text ≠ []) : rest.length < text.length := by
  rw [leadingEntity, bind_eq_some_iff] at h
  obtain ⟨⟨entity, rest'⟩, hend, hentity⟩ := h
  obtain ⟨ch', -, heq⟩ := map_eq_some_iff.mp hentity
  cases heq
  unfold entityTerminator at hend
  split at hend
  · exact absurd hend (some_ne_none _).symm
  · split_ifs at hend
    cases hend
    have := length_pos_iff.mpr htext
    rw [length_drop]
    omega

lemma decodeStep_length_le (c : Char) (rest : Text) :
    (decodeStep c rest).2.length ≤ rest.length := by
  unfold decodeStep
  split_ifs
  · cases hentity : leadingEntity (c :: rest) with
    | none => exact le_rfl
    | some read =>
      exact Nat.le_of_lt_succ (length_of_leadingEntity hentity (cons_ne_nil _ _))
  · exact le_rfl

/-- The loop of `decode_entities`. -/
def decodeLoop (text : Text) : Text :=
  match text with
  | [] => []
  | c :: rest => (decodeStep c rest).1 :: decodeLoop (decodeStep c rest).2
termination_by text.length
decreasing_by exact Nat.lt_succ_of_le (decodeStep_length_le c rest)

def decodeEntities (text : Text) : Text := if text.contains '&' then decodeLoop text else text

lemma decodeLoop_nil : decodeLoop [] = [] := by rw [decodeLoop]

variable {c : Char}

lemma decodeLoop_of_ne (hc : c ≠ '&') (rest : Text) :
    decodeLoop (c :: rest) = c :: decodeLoop rest := by
  rw [decodeLoop, decodeStep, if_neg hc]

lemma decodeLoop_entity {ch : Char} (h : leadingEntity ('&' :: text) = some (ch, rest)) :
    decodeLoop ('&' :: text) = ch :: decodeLoop rest := by
  rw [decodeLoop, decodeStep, if_pos rfl, h, getD_some]

lemma decodeLoop_of_not_mem (h : '&' ∉ text) : decodeLoop text = text := by
  induction text with
  | nil => exact decodeLoop_nil
  | cons c text ih =>
    rw [mem_cons, not_or] at h
    rw [decodeLoop_of_ne (Ne.symm h.1), ih h.2]

lemma decodeEntities_eq (text : Text) : decodeEntities text = decodeLoop text := by
  unfold decodeEntities
  split_ifs with hcontains
  · rfl
  · exact (decodeLoop_of_not_mem (by simpa using hcontains)).symm

variable {raw : Text}

/-- Text without entities is read as it is. -/
lemma decodeEntities_append (hraw : '&' ∉ raw) (text : Text) :
    decodeEntities (raw ++ text) = raw ++ decodeEntities text := by
  rw [decodeEntities_eq, decodeEntities_eq]
  induction raw with
  | nil => rfl
  | cons c raw ih =>
    rw [mem_cons, not_or] at hraw
    rw [cons_append, decodeLoop_of_ne (Ne.symm hraw.1), ih hraw.2, cons_append]

/-! ### The tree -/

inductive MarkupContent (Node : Type) where
  | text (text : Text)
  | element (node : Node)

/-- An element, without the attributes that only the HTML reader looks at. -/
structure MarkupNode where
  name : Text
  selfClosing : Bool
  content : List (MarkupContent MarkupNode)

/-- `eq_ignore_ascii_case`, of two texts. -/
def sameName (name other : Text) : Bool := eqIgnoreAsciiCase name (String.ofList other)

namespace MarkupNode

def is (node : MarkupNode) (name : Text) : Bool := sameName node.name name

def elements (node : MarkupNode) : List MarkupNode :=
  node.content.filterMap fun
    | .element child => some child
    | .text _ => none

mutual

/-- The text of an element and everything under it; a line break element stands for a
newline. -/
def allText : MarkupNode → Text
  | ⟨_, _, content⟩ => allTextOf content

/-- The text of a list of contents. -/
def allTextOf : List (MarkupContent MarkupNode) → Text
  | [] => []
  | .text text :: rest => text ++ allTextOf rest
  | .element child :: rest =>
    (if child.is "br".toList then ['\n'] else []) ++ allText child ++ allTextOf rest

end

def pushText (node : MarkupNode) (text : Text) : MarkupNode :=
  if text = [] then node
  else
    match node.content.getLast? with
    | some (.text existing) =>
      { node with content := node.content.dropLast ++ [.text (existing ++ text)] }
    | _ => { node with content := node.content ++ [.text text] }

def pushElement (node child : MarkupNode) : MarkupNode :=
  { node with content := node.content ++ [.element child] }

def childrenNamed (node : MarkupNode) (name : Text) : List MarkupNode :=
  node.elements.filter (·.is name)

end MarkupNode

/-- HTML elements that never have a closing tag. -/
def voidElements : List Text :=
  ["br", "hr", "img", "input", "meta", "link", "col", "source"].map String.toList

def isVoid (name : Text) : Bool := voidElements.any (sameName name)

/-- HTML table elements that are closed implicitly when a sibling opens. -/
def implicitlyClosed : List (Text × List Text) :=
  [("td".toList, ["td".toList, "th".toList]), ("th".toList, ["td".toList, "th".toList]),
    ("tr".toList, ["tr".toList])]

/-! ### The reader -/

/-- The variables of `parse_markup`: the elements that are complete, and those that are open
with the innermost first. -/
structure MarkupState where
  roots : List MarkupNode := []
  stack : List MarkupNode := []

namespace MarkupState

variable (st : MarkupState)

def finish (node : MarkupNode) : MarkupState :=
  match st.stack with
  | parent :: stack => { st with stack := parent.pushElement node :: stack }
  | [] => { st with roots := st.roots ++ [node] }

/-- `close_to`, with the number of elements to close. -/
def close : ℕ → MarkupState → MarkupState
  | 0, st => st
  | count + 1, st =>
    match st.stack with
    | node :: stack => close count (({ st with stack } : MarkupState).finish node)
    | [] => st

/-- Text goes to the innermost element that is open. -/
def pushText (text : Text) : MarkupState :=
  match st.stack with
  | top :: stack => { st with stack := top.pushText text :: stack }
  | [] => st

end MarkupState

/-- The text in front of the first occurrence of a pattern, and behind it. -/
def splitFind (pattern : Text) : Text → Option (Text × Text)
  | [] => (stripPrefix pattern []).map fun rest => ([], rest)
  | c :: text =>
    match stripPrefix pattern (c :: text) with
    | some rest => some ([], rest)
    | none => (splitFind pattern text).map fun (before, rest) => (c :: before, rest)

/-- A comment, CDATA section, doctype or processing instruction at the start of the text: the
literal text that it contributes, and the text behind it. -/
def skipNonElement (text : Text) : Option (Text × Text) :=
  match stripPrefix "<!--".toList text with
  | some body => some ([], ((splitFind "-->".toList body).map snd).getD [])
  | none =>
    match stripPrefix "<![CDATA[".toList text with
    | some body => some ((splitFind "]]>".toList body).getD (body, []))
    | none =>
      if "<!".toList.isPrefixOf text || "<?".toList.isPrefixOf text then
        some ([], ((splitFind ['>'] text).map snd).getD [])
      else none

/-- The text of a tag up to the `>` that closes it, and the text behind it; a `>` inside a
quoted attribute value does not count. -/
def findTagEnd : Option Char → Text → Option (Text × Text)
  | _, [] => none
  | some quote, c :: rest =>
    (findTagEnd (if c = quote then none else some quote) rest).map
      fun (inner, after) => (c :: inner, after)
  | none, c :: rest =>
    if c = '>' then some ([], rest)
    else
      (findTagEnd (if c = '"' ∨ c = '\'' then some c else none) rest).map
        fun (inner, after) => (c :: inner, after)

def tagName (inner : Text) : Text :=
  ((trimStart inner).dropWhile (· = '/')).takeWhile fun c =>
    !isWhitespace c && c != '/' && c != '>'

namespace MarkupState

variable (st : MarkupState)

/-- A close tag closes the innermost element of its name, and everything in it. -/
def closeTag (name : Text) : MarkupState :=
  match st.stack.findIdx? (·.is name) with
  | some index => st.close (index + 1)
  | none => st

/-- The elements that an open tag closes implicitly; a table is a scope of its own. -/
def closeImplicitly (name : Text) : MarkupState :=
  match implicitlyClosed.find? fun entry => sameName name entry.1 with
  | some (_, closes) =>
    match (st.stack.takeWhile fun node => !node.is "table".toList).findIdx?
        fun node => closes.any node.is with
    | some index => st.close (index + 1)
    | none => st
  | none => st

def openTag (inner : Text) : MarkupState :=
  let selfClosing := (trimEnd inner).getLast? == some '/'
  let name := tagName inner
  if name = [] then st
  else
    let st := st.closeImplicitly name
    let node : MarkupNode := ⟨name, selfClosing, []⟩
    if selfClosing || isVoid name then st.finish node else { st with stack := node :: st.stack }

/-- A tag, by the text between its brackets. -/
def tag (inner : Text) : MarkupState :=
  match stripPrefix ['/'] inner with
  | some name => st.closeTag (tagName name)
  | none => st.openTag inner

end MarkupState

/-- One round of the loop of `parse_markup`, on a text that starts with a character. -/
def markupStep (c : Char) (rest : Text) (st : MarkupState) : Text × MarkupState :=
  if c ≠ '<' then
    (rest.dropWhile (· ≠ '<'), st.pushText (decodeEntities (c :: rest.takeWhile (· ≠ '<'))))
  else
    match skipNonElement (c :: rest) with
    | some (literal, after) => (after, st.pushText literal)
    | none =>
      match findTagEnd none rest with
      | some (inner, after) => (after, st.tag inner)
      | none => ([], st.pushText (decodeEntities (c :: rest)))

lemma length_of_stripPrefix {pattern : Text} (h : stripPrefix pattern text = some rest) :
    rest.length + pattern.length = text.length := by
  rw [stripPrefix_eq_some h, length_append, Nat.add_comm]

lemma length_of_splitFind {pattern before : Text}
    (h : splitFind pattern text = some (before, rest)) :
    rest.length + pattern.length ≤ text.length := by
  induction text generalizing before with
  | nil =>
    rw [splitFind, map_eq_some_iff] at h
    obtain ⟨rest', hstrip, heq⟩ := h
    cases heq
    exact (length_of_stripPrefix hstrip).le
  | cons c text ih =>
    rw [splitFind] at h
    cases hstrip : stripPrefix pattern (c :: text) with
    | some rest' =>
      rw [hstrip] at h
      cases h
      exact (length_of_stripPrefix hstrip).le
    | none =>
      rw [hstrip, map_eq_some_iff] at h
      obtain ⟨⟨before', rest'⟩, hfind, heq⟩ := h
      cases heq
      exact (ih hfind).trans (Nat.le_succ _)

lemma length_behind_splitFind (pattern text : Text) :
    (((splitFind pattern text).map snd).getD []).length ≤ text.length - pattern.length := by
  cases hfind : splitFind pattern text with
  | none => exact Nat.zero_le _
  | some found => exact Nat.le_sub_of_add_le (length_of_splitFind hfind)

lemma length_of_skipNonElement {literal after : Text} (htext : text ≠ [])
    (h : skipNonElement text = some (literal, after)) : after.length < text.length := by
  have hpos := length_pos_iff.mpr htext
  unfold skipNonElement at h
  split at h
  next body hbody =>
    cases h
    have hlen := length_of_stripPrefix hbody
    have hbehind := length_behind_splitFind "-->".toList body
    simp only [String.reduceToList, length_cons, length_nil] at hlen hbehind
    exact hbehind.trans_lt (by omega)
  next =>
    split at h
    next body hbody =>
      have hlen := length_of_stripPrefix hbody
      simp only [String.reduceToList, length_cons, length_nil] at hlen
      cases hfind : splitFind "]]>".toList body with
      | none =>
        rw [hfind] at h
        cases h
        exact hpos
      | some found =>
        rw [hfind] at h
        cases h
        have := length_of_splitFind hfind
        omega
    next =>
      split_ifs at h
      cases h
      have hbehind := length_behind_splitFind ['>'] text
      exact hbehind.trans_lt (Nat.sub_lt hpos one_pos)

variable {inner : Text}

lemma length_of_findTagEnd {quote : Option Char} {after : Text}
    (h : findTagEnd quote text = some (inner, after)) : after.length ≤ text.length := by
  induction text generalizing quote inner with
  | nil => cases quote <;> exact absurd h (by simp [findTagEnd])
  | cons c text ih =>
    -- a character is the end of the tag or part of it
    have hpart {quote' : Option Char}
        (h : (findTagEnd quote' text).map (fun (inner, after) => (c :: inner, after))
          = some (inner, after)) : after.length ≤ (c :: text).length := by
      rw [map_eq_some_iff] at h
      obtain ⟨⟨inner', after'⟩, hfind, heq⟩ := h
      cases heq
      exact (ih hfind).trans (Nat.le_succ _)
    cases quote with
    | some quote =>
      exact hpart h
    | none =>
      rw [findTagEnd] at h
      by_cases hend : c = '>'
      · rw [if_pos hend] at h
        cases h
        exact Nat.le_succ _
      · rw [if_neg hend] at h
        exact hpart h

lemma markupStep_length_le (c : Char) (rest : Text) (st : MarkupState) :
    (markupStep c rest st).1.length ≤ rest.length := by
  unfold markupStep
  split_ifs
  · exact (dropWhile_sublist _).length_le
  · split
    next literal after hskip =>
      exact Nat.le_of_lt_succ (length_of_skipNonElement (cons_ne_nil _ _) hskip)
    next =>
      split
      next inner after htag => exact length_of_findTagEnd htag
      next => exact Nat.zero_le _

/-- The loop of `parse_markup`. -/
def markupLoop (text : Text) (st : MarkupState) : MarkupState :=
  match text with
  | [] => st
  | c :: rest => markupLoop (markupStep c rest st).1 (markupStep c rest st).2
termination_by text.length
decreasing_by exact Nat.lt_succ_of_le (markupStep_length_le c rest st)

def parseMarkup (text : Text) : List MarkupNode :=
  let st := markupLoop text {}
  (st.close st.stack.length).roots

/-! ### The reader in front of a piece of markup -/

lemma markupLoop_nil (st : MarkupState) : markupLoop [] st = st := by rw [markupLoop]

lemma markupLoop_of_step {rest' : Text} {st st' : MarkupState}
    (h : markupStep c rest st = (rest', st')) :
    markupLoop (c :: rest) st = markupLoop rest' st' := by
  rw [markupLoop, h]

lemma MarkupState.pushText_nil (st : MarkupState) : st.pushText [] = st := by
  obtain ⟨roots, stack⟩ := st
  cases stack with
  | nil => rfl
  | cons top stack => rfl

lemma decodeEntities_nil : decodeEntities [] = [] := rfl

/-- Text up to the next tag, or to the end. -/
lemma markupLoop_text (hraw : '<' ∉ raw) (hrest : ∀ c ∈ rest.head?, c = '<') (st : MarkupState) :
    markupLoop (raw ++ rest) st = markupLoop rest (st.pushText (decodeEntities raw)) := by
  cases raw with
  | nil => rw [nil_append, decodeEntities_nil, st.pushText_nil]
  | cons c raw =>
    rw [mem_cons, not_or] at hraw
    have htake : ∀ c ∈ raw, decide (c ≠ '<') := fun c hc =>
      decide_eq_true (ne_of_mem_of_not_mem hc hraw.2)
    have hdrop : rest.dropWhile (· ≠ '<') = rest ∧ rest.takeWhile (· ≠ '<') = [] := by
      cases rest with
      | nil => exact ⟨rfl, rfl⟩
      | cons d rest =>
        have hd : d = '<' := hrest d rfl
        simp [hd]
    rw [cons_append]
    refine markupLoop_of_step ?_
    rw [markupStep, if_pos (Ne.symm hraw.1), dropWhile_append_of_pos htake,
      takeWhile_append_of_pos htake, hdrop.1, hdrop.2, append_nil]

lemma MarkupNode.pushText_append (node : MarkupNode) (text more : Text) :
    node.pushText (text ++ more) = (node.pushText text).pushText more := by
  by_cases htext : text = []
  · rw [htext]
    rfl
  by_cases hmore : more = []
  · rw [hmore, append_nil]
    rfl
  have happ : text ++ more ≠ [] := append_ne_nil_of_left_ne_nil htext _
  unfold pushText
  rw [if_neg happ, if_neg htext]
  split
  next existing hlast => simp
  next => simp

lemma MarkupState.pushText_append (st : MarkupState) (text more : Text) :
    st.pushText (text ++ more) = (st.pushText text).pushText more := by
  obtain ⟨roots, stack⟩ := st
  cases stack with
  | nil => rfl
  | cons top stack => simp only [pushText, MarkupNode.pushText_append]

/-- Text without entities, and whatever follows it. -/
lemma markupLoop_plain (htag : '<' ∉ raw) (hamp : '&' ∉ raw) (rest : Text)
    (st : MarkupState) : markupLoop (raw ++ rest) st = markupLoop rest (st.pushText raw) := by
  -- the text goes on up to the next tag
  obtain ⟨more, rest, hmore, hrest, rfl⟩ : ∃ more rest', '<' ∉ more ∧
      (∀ c ∈ rest'.head?, c = '<') ∧ rest = more ++ rest' := by
    refine ⟨rest.takeWhile (· ≠ '<'), rest.dropWhile (· ≠ '<'), fun hc => ?_, fun c hc => ?_,
      (takeWhile_append_dropWhile).symm⟩
    · simpa using all_eq_true.mp all_takeWhile _ hc
    · have := head?_dropWhile_not (fun c => decide (c ≠ '<')) rest
      rw [hc] at this
      simpa using this
  have hall : '<' ∉ raw ++ more := by
    rw [mem_append, not_or]
    exact ⟨htag, hmore⟩
  rw [← append_assoc, markupLoop_text hall hrest, markupLoop_text hmore hrest,
    decodeEntities_append hamp, st.pushText_append]

lemma splitFind_singleton {p : Char} (body : Text) (hbody : p ∉ body) (rest : Text) :
    splitFind [p] (body ++ p :: rest) = some (body, rest) := by
  induction body with
  | nil =>
    rw [nil_append, splitFind, show stripPrefix [p] (p :: rest) = some rest from
      stripPrefix_append [p] rest]
  | cons c body ih =>
    rw [mem_cons, not_or] at hbody
    rw [cons_append, splitFind, stripPrefix_singleton_of_ne (Ne.symm hbody.1), ih hbody.2]
    rfl

/-- A processing instruction is skipped. -/
lemma markupLoop_instruction {body : Text} (hbody : '>' ∉ body) (rest : Text) (st : MarkupState) :
    markupLoop ('<' :: '?' :: (body ++ '>' :: rest)) st = markupLoop rest st := by
  have hsplit : splitFind ['>'] ('<' :: '?' :: (body ++ '>' :: rest))
      = some ('<' :: '?' :: body, rest) :=
    splitFind_singleton ('<' :: '?' :: body) (by simpa using hbody) rest
  have hskip : skipNonElement ('<' :: '?' :: (body ++ '>' :: rest)) = some ([], rest) := by
    rw [skipNonElement, hsplit]
    simp [stripPrefix]
  refine markupLoop_of_step ?_
  rw [markupStep, hskip]
  exact Prod.ext rfl st.pushText_nil

/-- A character of a tag that ends at the next `>`. -/
def isTagChar (c : Char) : Bool := c != '>' && c != '"' && c != '\''

lemma findTagEnd_append (hinner : ∀ c ∈ inner, isTagChar c) (rest : Text) :
    findTagEnd none (inner ++ '>' :: rest) = some (inner, rest) := by
  induction inner with
  | nil => rfl
  | cons c inner ih =>
    rw [forall_mem_cons] at hinner
    obtain ⟨hc, hinner⟩ := hinner
    simp only [isTagChar, and_eq_true, bne_iff_ne] at hc
    rw [cons_append, findTagEnd, if_neg hc.1.1, if_neg (not_or.mpr ⟨hc.1.2, hc.2⟩), ih hinner]
    rfl

lemma skipNonElement_eq_none (hbang : c ≠ '!') (hquery : c ≠ '?') (rest : Text) :
    skipNonElement ('<' :: c :: rest) = none := by
  simp [skipNonElement, stripPrefix, hbang.symm, hquery.symm]

lemma markupLoop_tag (hbang : c ≠ '!') (hquery : c ≠ '?')
    (hinner : ∀ d ∈ c :: inner, isTagChar d) (rest : Text) (st : MarkupState) :
    markupLoop ('<' :: (c :: inner ++ '>' :: rest)) st = markupLoop rest (st.tag (c :: inner)) := by
  refine markupLoop_of_step ?_
  rw [markupStep, if_neg (by simp), cons_append, skipNonElement_eq_none hbang hquery]
  rw [← cons_append, findTagEnd_append hinner]

/-! ### Tags -/

/-- A character of an element name. -/
def isNameChar (c : Char) : Bool :=
  !isWhitespace c && c != '/' && c != '!' && c != '?' && c != '<' && isTagChar c

/-- A text that is read as the name of a tag. -/
structure IsTagName (name : Text) : Prop where
  ne_nil : name ≠ []
  chars : ∀ c ∈ name, isNameChar c = true

namespace IsTagName

variable {name : Text} (hname : IsTagName name)
include hname

lemma notWhitespace : ∀ c ∈ name, isWhitespace c = false := by
  intro c hc
  have := hname.chars c hc
  simp only [isNameChar, and_eq_true, not_eq_true'] at this
  exact this.1.1.1.1.1

lemma notSlash : ∀ c ∈ name, c ≠ '/' := by
  intro c hc
  have := hname.chars c hc
  simp only [isNameChar, and_eq_true, bne_iff_ne] at this
  exact this.1.1.1.1.2

lemma tagChars : ∀ c ∈ name, isTagChar c := by
  intro c hc
  have := hname.chars c hc
  simp only [isNameChar, and_eq_true] at this
  exact this.2

/-- A name is not the start of a declaration or an instruction. -/
lemma exists_cons : ∃ c rest, name = c :: rest ∧ c ≠ '!' ∧ c ≠ '?' := by
  obtain ⟨c, rest, rfl⟩ := exists_cons_of_ne_nil hname.ne_nil
  have := hname.chars c mem_cons_self
  simp only [isNameChar, and_eq_true, bne_iff_ne] at this
  exact ⟨c, rest, rfl, this.1.1.1.2, this.1.1.2⟩

lemma tagName_append {rest : Text} (hrest : rest = [] ∨ rest = ['/']) :
    tagName (name ++ rest) = name := by
  have htake : ∀ c ∈ name, (!isWhitespace c && c != '/' && c != '>') := by
    intro c hc
    have htag := hname.tagChars c hc
    simp only [isTagChar, and_eq_true, bne_iff_ne] at htag
    simp [hname.notWhitespace c hc, hname.notSlash c hc, htag.1.1]
  obtain ⟨c, tail, rfl, -⟩ := hname.exists_cons
  have hc := mem_cons_self (a := c) (l := tail)
  rw [tagName, trimStart, cons_append, dropWhile_cons_of_neg (by simp [hname.notWhitespace c hc]),
    dropWhile_cons_of_neg (by simp [hname.notSlash c hc]), ← cons_append,
    takeWhile_append_of_pos htake]
  obtain rfl | rfl := hrest <;> simp

lemma tagName_eq : tagName name = name := by
  have happ : tagName (name ++ []) = name := hname.tagName_append (.inl rfl)
  rwa [append_nil] at happ

lemma stripPrefix_slash (rest : Text) : stripPrefix ['/'] (name ++ rest) = none := by
  obtain ⟨c, tail, rfl, -⟩ := hname.exists_cons
  exact stripPrefix_singleton_of_ne (hname.notSlash c mem_cons_self) _

end IsTagName

/-- The tags that close elements implicitly close none of these. -/
def staysOpen (node : MarkupNode) : Bool :=
  implicitlyClosed.all fun entry => !entry.2.any node.is

lemma MarkupState.closeImplicitly_eq_self {st : MarkupState}
    (hstack : ∀ node ∈ st.stack, staysOpen node) (name : Text) : st.closeImplicitly name = st := by
  unfold closeImplicitly
  split
  next closes hentry =>
    have hmem := mem_of_find?_eq_some hentry
    have hnone : ((st.stack.takeWhile fun node => !node.is "table".toList).findIdx?
        fun node => closes.any node.is) = none := by
      rw [findIdx?_eq_none_iff]
      intro node hnode
      have hopen := hstack node ((takeWhile_sublist _).subset hnode)
      rw [staysOpen, all_eq_true] at hopen
      simpa using hopen _ hmem
    rw [hnone]
  next => rfl

section

variable {name : Text} (hname : IsTagName name) (rest : Text) {st : MarkupState}
include hname

open MarkupState

/-- The element of an open tag is complete if it is void, and open otherwise. -/
lemma markupLoop_openTag (hstack : ∀ node ∈ st.stack, staysOpen node) :
    markupLoop ('<' :: (name ++ '>' :: rest)) st
      = markupLoop rest (if isVoid name then st.finish ⟨name, false, []⟩
        else { st with stack := ⟨name, false, []⟩ :: st.stack }) := by
  have hopen : st.openTag name = if isVoid name then st.finish ⟨name, false, []⟩
      else { st with stack := ⟨name, false, []⟩ :: st.stack } := by
    have hlast : ((trimEnd name).getLast? == some '/') = false := by
      obtain ⟨init, c, rfl⟩ := (eq_nil_or_concat' name).resolve_left hname.ne_nil
      have hc : c ∈ init ++ [c] := by simp
      rw [trimEnd_concat (hname.notWhitespace c hc)]
      simpa using hname.notSlash c hc
    rw [openTag, hlast, hname.tagName_eq, if_neg hname.ne_nil,
      closeImplicitly_eq_self hstack, Bool.false_or]
  have htag : st.tag name = st.openTag name := by
    have hslash := hname.stripPrefix_slash []
    rw [append_nil] at hslash
    rw [tag, hslash]
  rw [← hopen, ← htag]
  obtain ⟨c, tail, rfl, hbang, hquery⟩ := hname.exists_cons
  exact markupLoop_tag hbang hquery hname.tagChars rest st

/-- An element written `<name/>` is complete. -/
lemma markupLoop_selfClosing (hstack : ∀ node ∈ st.stack, staysOpen node) :
    markupLoop ('<' :: (name ++ '/' :: '>' :: rest)) st
      = markupLoop rest (st.finish ⟨name, true, []⟩) := by
  have hopen : st.openTag (name ++ ['/']) = st.finish ⟨name, true, []⟩ := by
    have hlast : ((trimEnd (name ++ ['/'])).getLast? == some '/') := by
      rw [trimEnd_concat (by decide)]
      simp
    rw [openTag, hlast, hname.tagName_append (.inr rfl), if_neg hname.ne_nil,
      closeImplicitly_eq_self hstack, Bool.true_or, if_pos rfl]
  have htag : st.tag (name ++ ['/']) = st.openTag (name ++ ['/']) := by
    rw [tag, hname.stripPrefix_slash]
  rw [← hopen, ← htag]
  obtain ⟨c, tail, rfl, hbang, hquery⟩ := hname.exists_cons
  have hinner : ∀ d ∈ c :: (tail ++ ['/']), isTagChar d := by
    rw [← cons_append, forall_mem_append]
    exact ⟨hname.tagChars, forall_mem_singleton.mpr (by decide)⟩
  have := markupLoop_tag hbang hquery hinner rest st
  simpa using this

/-- A close tag. -/
lemma markupLoop_closeTag : markupLoop ('<' :: '/' :: (name ++ '>' :: rest)) st
      = markupLoop rest (st.closeTag name) := by
  have htag : st.tag ('/' :: name) = st.closeTag name := by
    rw [tag, show stripPrefix ['/'] ('/' :: name) = some name from
      stripPrefix_append ['/'] name]
    dsimp only
    rw [hname.tagName_eq]
  rw [← htag]
  refine markupLoop_tag (by decide) (by decide) ?_ rest st
  rw [forall_mem_cons]
  exact ⟨by decide, hname.tagChars⟩

end

lemma sameName_iff {name other : Text} :
    sameName name other ↔ name.map Char.toUpper = other.map Char.toUpper := by
  simp [sameName, eqIgnoreAsciiCase, asciiUppercase, String.ofList_inj]

lemma sameName_refl (name : Text) : sameName name name := sameName_iff.mpr rfl

/-- The close tag of the innermost element. -/
lemma MarkupState.closeTag_top (roots stack : List MarkupNode) (node : MarkupNode) :
    closeTag ⟨roots, node :: stack⟩ node.name = finish ⟨roots, stack⟩ node := by
  have hfind : (node :: stack).findIdx? (·.is node.name) = some 0 := by
    rw [findIdx?_cons, MarkupNode.is, sameName_refl, if_pos rfl]
  rw [closeTag, hfind]
  rfl

/-- A close tag that closes nothing. -/
lemma MarkupState.closeTag_eq_self {st : MarkupState} {name : Text}
    (h : ∀ node ∈ st.stack, node.is name = false) : st.closeTag name = st := by
  rw [closeTag, findIdx?_eq_none_iff.mpr h]

/-! ### Children -/

/-- The element with more children, and with any text between them. -/
structure MarkupNode.Extends (node node' : MarkupNode) (children : List MarkupNode) : Prop where
  name : node'.name = node.name
  selfClosing : node'.selfClosing = node.selfClosing
  elements : node'.elements = node.elements ++ children

namespace MarkupNode

lemma extends_pushText (node : MarkupNode) (text : Text) :
    node.Extends (node.pushText text) [] := by
  unfold pushText
  split_ifs
  · exact ⟨rfl, rfl, (append_nil _).symm⟩
  · split
    next existing hlast =>
      obtain ⟨init, hinit⟩ := getLast?_eq_some_iff.mp hlast
      refine ⟨rfl, rfl, ?_⟩
      simp [elements, hinit]
    next => exact ⟨rfl, rfl, by simp [elements]⟩

lemma extends_pushElement (node child : MarkupNode) :
    node.Extends (node.pushElement child) [child] :=
  ⟨rfl, rfl, by simp [elements, pushElement]⟩

variable {node node' node'' : MarkupNode} {children children' : List MarkupNode}

lemma Extends.trans (h : node.Extends node' children) (h' : node'.Extends node'' children') :
    node.Extends node'' (children ++ children') :=
  ⟨h'.name.trans h.name, h'.selfClosing.trans h.selfClosing, by
    rw [h'.elements, h.elements, append_assoc]⟩

lemma Extends.staysOpen (h : node.Extends node' children) :
    staysOpen node' = Transfer.staysOpen node := by
  unfold Transfer.staysOpen is
  rw [h.name]

end MarkupNode

end SpaceQuery.Transfer
