import SpaceQuery.Script.SelectList

/-!
`rowid_safe_execution_sql` of `script.rs`: the statement that is sent to Oracle, in which ROWID
columns of the main select list are converted to text. An expression is taken for a ROWID column by
its text up to the first white space.
-/

namespace SpaceQuery.Script

open List RustText SqlText Classify Lexing StartsFlat

/-! ### Rewriting the list -/

def leadingProjectionToken (expr : List Char) : Option (List Char) :=
  match trim expr with
  | [] => none
  | trimmed => some (trimmed.takeWhile (!isWhitespace ·))

def rowidToChar : List Char := "ROWIDTOCHAR(".toList

/-- A text that is taken for a ROWID column. -/
def isRowidToken (token : List Char) : Bool :=
  let upper := token.map Char.toUpper
  !rowidToChar.isPrefixOf upper && (upper = "ROWID".toList || ".ROWID".toList.isSuffixOf upper)

/-- An expression that is rewritten, with the text that is taken for a ROWID column. -/
def rowidToken (projection : List Char) : Option (List Char) :=
  (leadingProjectionToken (trim projection)).filter isRowidToken

def internalAlias : List Char := ") AS SQ_INTERNAL_ROWID".toList

def normalizedProjection (first : Bool) (projection : List Char) : List Char :=
  match rowidToken projection with
  | some token =>
    if first then rowidToChar ++ token ++ internalAlias ++ trailingWhitespace projection
    else
      rowidToChar ++ token ++ ')' :: (trim projection).drop token.length
        ++ trailingWhitespace projection
  | none => trimStart projection

/-- The expressions that the loop goes through: an empty one at the end is not among them. -/
def cutProjections : ℕ → List Char → List (List Char)
  | 0, _ => []
  | fuel + 1, tail =>
    if tail.isEmpty then []
    else
      match findFirstTopLevelComma tail with
      | none => [tail]
      | some n => tail.take n :: cutProjections fuel (tail.drop (n + 1))

/-- An expression is pushed to the rewritten list. -/
def pushProjection (rewritten projection : List Char) : List Char :=
  if rewritten.isEmpty then projection else rewritten ++ ", ".toList ++ projection

/-- The rewritten expressions. -/
def normalizedProjections : List (List Char) → List (List Char)
  | [] => []
  | first :: rest => normalizedProjection true first :: rest.map (normalizedProjection false)

def rewrittenSelectList (selectList : List Char) : List Char :=
  (normalizedProjections (cutProjections selectList.length selectList)).foldl pushProjection []

/-- Whether an expression was rewritten. -/
def changesSelectList (selectList : List Char) : Bool :=
  (cutProjections selectList.length selectList).any fun projection => (rowidToken projection).isSome

def rowidSafeExecutionSql [UnicodeClasses] (withClauseStartsWithSelect : List Char → Bool)
    (sql : List Char) : List Char :=
  match selectList withClauseStartsWithSelect sql with
  | none => sql
  | some found =>
    if changesSelectList found.list then
      found.before ++ rewrittenSelectList found.list ++ found.after
    else sql

/-! ### ROWID columns -/

/-- A piece of the qualifier of a column. -/
def isReferencePiece : Piece → Bool
  | (.word, _) => true
  | (.quoted, text) => text.head? = some '"' && !text.any isWhitespace
  | (.symbol, [c]) => c = '.' || c.isDigit || (128 ≤ c.toNat && !isWhitespace c)
  | _ => false

/-- The pieces of a text in front of a comma. -/
def piecesBeforeComma (text : List Char) : Option (List Piece) :=
  let pieces := scanLexer.tokens [] (text ++ [','])
  if pieces.getLast? = some (.symbol, [',']) then some pieces.dropLast else none

/-- `ROWID` or `q.ROWID`, and nothing else. -/
def isRowidColumn (text : List Char) : Bool :=
  (piecesBeforeComma text).any fun pieces =>
    pieces.getLast?.any (fun piece => piece.1 = .word && eqIgnoreAsciiCase piece.2 "ROWID")
      && pieces.dropLast.all isReferencePiece
      && pieces.dropLast.getLast?.all (· = (.symbol, ['.']))

/-- A piece that is not code. -/
def isBlankPiece (piece : Piece) : Bool :=
  piece.1 = .blank || piece.1 = .comment || piece.2.all isWhitespace

/-- A piece of an alias. -/
def isAliasPiece : Piece → Bool
  | (.word, _) => true
  | (.quoted, text) => text.head? = some '"'
  | (.symbol, [c]) => c.isDigit || 128 ≤ c.toNat
  | _ => false

/-- Nothing but an alias, with or without the word AS. -/
def isAlias (text : List Char) : Bool :=
  match ((scanLexer.tokens [] text).splitOnP isBlankPiece).filter (!·.isEmpty) with
  | [] => true
  | [name] => name.all isAliasPiece
  | [keyword, name] =>
    keyword.all (fun piece => piece.1 = .word && eqIgnoreAsciiCase piece.2 "AS")
      && name.all isAliasPiece
  | _ => false

/-- A ROWID column with an optional alias. -/
def isRowidReference (projection : List Char) : Bool :=
  isRowidColumn ((trimStart projection).takeWhile (!isWhitespace ·))
    && isAlias ((trimStart projection).dropWhile (!isWhitespace ·))

example : isRowidReference " t.ROWID AS \"row id\" ".toList = true
    ∧ isRowidReference "ROWID /* key */ rid".toList = true
    ∧ isRowidReference "ROWID || 'x'".toList = false
    ∧ isRowidReference "'a'||t.ROWID".toList = false := by decide +kernel

/-! ### Expressions of the same shape -/

/-- The pieces of a ROWID column, whatever follows it. -/
structure ColumnPieces (token : List Char) (pieces : List Piece) : Prop where
  flat : IsFlat pieces
  textOf : textOf pieces = token
  tokens : ∀ {rest}, Stops rest →
    scanLexer.tokens [] (token ++ rest) = pieces ++ scanLexer.tokens (token.reverse ++ []) rest

lemma isFlat_of_isReferencePiece {pieces : List Piece}
    (h : ∀ piece ∈ pieces, isReferencePiece piece) : IsFlat pieces := by
  induction pieces with
  | nil => exact IsFlat.nil
  | cons piece pieces ih =>
    rw [forall_mem_cons] at h
    obtain ⟨hpiece, hpieces⟩ := h
    refine (ih hpieces).cons ?_ ?_ ?_
    · rintro rfl
      exact absurd hpiece (by decide)
    · intro hkind
      obtain ⟨k, text⟩ := piece
      obtain rfl : k = .openParen := hkind
      exact absurd hpiece (by simp [isReferencePiece])
    · intro hkind
      obtain ⟨k, text⟩ := piece
      obtain rfl : k = .closeParen := hkind
      exact absurd hpiece (by simp [isReferencePiece])

variable {token : List Char}

lemma exists_columnPieces (h : isRowidColumn token) : ∃ pieces, ColumnPieces token pieces := by
  obtain ⟨pieces, hpieces, h⟩ := (Option.any_eq_true _ _).mp h
  simp only [Bool.and_eq_true, Option.any_eq_true, all_eq_true] at h
  obtain ⟨⟨⟨last, hlast, hword⟩, href⟩, -⟩ := h
  unfold piecesBeforeComma at hpieces
  dsimp only at hpieces
  split_ifs at hpieces with hcomma
  cases hpieces
  have htoks : scanLexer.tokens [] (token ++ [','])
      = (scanLexer.tokens [] (token ++ [','])).dropLast ++ [(.symbol, [','])] :=
    (dropLast_append_getLast? _ hcomma).symm
  generalize (scanLexer.tokens [] (token ++ [','])).dropLast = P at *
  have htext : textOf P = token := by
    have hflat := scanLexer.tokens_flatten [] (token ++ [','])
    rw [htoks, map_append, flatten_append] at hflat
    exact append_inj_left' hflat rfl
  refine ⟨P, ?_, htext, fun hrest => ?_⟩
  · -- the last piece is a word
    rw [← dropLast_append_getLast? _ hlast]
    refine isFlat_of_isReferencePiece fun piece hpiece => ?_
    rcases mem_append.mp hpiece with hpiece | hpiece
    · exact href piece hpiece
    · obtain ⟨k, w⟩ := piece
      obtain rfl := mem_singleton.mp hpiece
      obtain rfl : k = .word := by simpa using hword.1
      rfl
  · subst htext
    exact scanLexer.tokens_exchange (cons_ne_nil _ _) (scanNext_exchange [] hrest) htoks

variable {text tail : List Char} {T A : List Piece}

/-- A column in front of white space. -/
lemma ColumnPieces.startsFlat
    (hT : ColumnPieces token T) (hfresh : IsFresh text) (h : StartsFlat text tail A) :
    StartsFlat (token ++ text) tail (T ++ A) where
  flat := hT.flat.append h.flat
  textOf := by
    rw [Script.textOf, map_append, flatten_append, append_assoc]
    exact congrArg₂ _ hT.textOf h.textOf
  tokens hrest := by
    have hstart := hfresh.append_ends hrest
    rw [append_assoc, hT.tokens hstart.stops, tokens_fresh hstart, h.tokens hrest, append_assoc]

lemma rowidToChar_eq : ∃ w, rowidToChar = 'R' :: w ++ ['('] ∧ w.all isIdentifierByte :=
  ⟨"OWIDTOCHAR".toList, by decide, by decide⟩

/-- The conversion of a column. -/
lemma ColumnPieces.call (hT : ColumnPieces token T) (h : StartsFlat text tail A) :
    ∃ B, StartsFlat (rowidToChar ++ token ++ ')' :: text) tail B := by
  obtain ⟨w, hw, hbytes⟩ := rowidToChar_eq
  rw [hw]
  refine ⟨(.word, 'R' :: w) :: (((.openParen, ['(']) :: (T ++ [(.closeParen, [')'])])) ++ A),
    ?_, ?_, fun {rest} hrest => ?_⟩
  · exact (hT.flat.parens.append h.flat).cons (by simp) (by simp) (by simp)
  · rw [← hT.textOf, ← h.textOf]
    simp [Script.textOf]
  · have hcall : 'R' :: w ++ ['('] ++ token ++ ')' :: text ++ rest
        = 'R' :: w ++ '(' :: (token ++ ')' :: (text ++ rest)) := by
      simp
    rw [hcall, tokens_word (by decide) (by decide) hbytes [] (stops_cons (by decide) _),
      tokens_openParen, hT.tokens (stops_cons (by decide) _), tokens_closeParen, h.tokens hrest]
    simp

/-- Whatever expression follows in a list, the other one may stand in its place. -/
structure Keeps (projection rewritten : List Char) : Prop where
  segment : ∀ {pieces}, Segment projection pieces → ∃ pieces', Segment rewritten pieces'
  noComma : findFirstTopLevelComma projection = none → findFirstTopLevelComma rewritten = none

lemma StartsFlat.keeps {text' : List Char} {B : List Piece}
    (hA : StartsFlat text tail A) (hB : StartsFlat text' tail B) : Keeps text text' :=
  ⟨hA.segment hB, hA.findFirstTopLevelComma_eq_none hB⟩

lemma segment_nil : Segment [] [] where
  textOf := rfl
  tokens_comma more := tokens_comma [] more
  tokens_end := rfl
  noComma := rfl
  depth := rfl

/-- A text without commas and parentheses may stand anywhere. -/
lemma StartsFlat.keeps_all {text' : List Char} {B : List Piece} (hB : StartsFlat text' [] B)
    (text : List Char) : Keeps text text' :=
  ⟨fun _ => (refl []).segment hB segment_nil,
    fun _ => (refl []).findFirstTopLevelComma_eq_none hB rfl⟩

lemma projections_ne_nil (list : List Char) : projections list ≠ [] :=
  projections_induction (motive := fun _ expressions => expressions ≠ [])
    (fun _ _ => cons_ne_nil _ _) (fun _ _ _ _ _ => cons_ne_nil _ _) list

variable {list : List Char}

open List (Forall₂)

/-- Expressions are exchanged for others of the same shape. -/
theorem Keeps.projections {rewritten : List (List Char)}
    (h : Forall₂ Keeps (projections list) rewritten) :
    Script.projections ([','].intercalate rewritten) = rewritten := by
  refine projections_induction (motive := fun _ expressions => ∀ rewritten,
    Forall₂ Keeps expressions rewritten →
      Script.projections ([','].intercalate rewritten) = rewritten) ?_ ?_ list rewritten h
  · rintro text hnone _ (_ | ⟨hkeeps, _ | _⟩)
    rw [intercalate_singleton]
    exact projections_of_none (hkeeps.noComma hnone)
  · rintro text pieces more hseg ih _ (_ | ⟨hkeeps, hrest⟩)
    rename_i first rest
    obtain ⟨pieces', hseg'⟩ := hkeeps.segment hseg
    have hne : rest ≠ [] := by
      rintro rfl
      exact projections_ne_nil more (forall₂_nil_right_iff.mp hrest)
    obtain ⟨second, rest, rfl⟩ := exists_cons_of_ne_nil hne
    rw [intercalate_cons_cons, append_assoc, singleton_append, hseg'.projections, ih _ hrest]

/-! ### The rewritten expressions -/

variable {projection : List Char}

open Option (some)

/-- The text that is taken for a ROWID column, and the text behind it. -/
lemma rowidToken_eq_some (h : rowidToken projection = some token) :
    isRowidToken token ∧ token = (trimStart projection).takeWhile (!isWhitespace ·) ∧
      (trim projection).drop token.length ++ trailingWhitespace projection
        = (trimStart projection).dropWhile (!isWhitespace ·) := by
  obtain ⟨htok, hrowid⟩ := Option.filter_eq_some_iff.mp h
  have hne : trim projection ≠ [] := by
    intro hnil
    rw [leadingProjectionToken, trim_trim, hnil] at htok
    exact absurd htok (by simp)
  have hstart := trimStart_ne_nil hne
  have heq : (trim projection).takeWhile (!isWhitespace ·) = token := by
    rw [leadingProjectionToken, trim_trim] at htok
    split at htok
    · exact absurd htok (by simp)
    · exact some.inj htok
  have hsuf := trim_append_trailingWhitespace hstart
  -- the white space at the end ends the text as well
  have htake : (trailingWhitespace projection).takeWhile (!isWhitespace ·) = [] := by
    cases hws : trailingWhitespace projection with
    | nil => rfl
    | cons c ws =>
      have hc := isWhitespace_of_mem_trailingWhitespace (s := projection) c (by simp [hws])
      rw [takeWhile_cons_of_neg (by simp [hc])]
  have hfirst : token = (trimStart projection).takeWhile (!isWhitespace ·) := by
    rw [← hsuf, takeWhile_append, heq, htake]
    split_ifs with hall
    · rw [append_nil, ← heq]
      exact (List.takeWhile_prefix _).eq_of_length (heq ▸ hall)
    · rfl
  have hle : token.length ≤ (trim projection).length := by
    rw [← heq]
    exact (List.takeWhile_prefix _).length_le
  refine ⟨hrowid, hfirst, ?_⟩
  rw [← drop_append_of_le_length hle, hsuf]
  conv_lhs => rw [← takeWhile_append_dropWhile (p := (!isWhitespace ·))
    (l := trimStart projection), ← hfirst]
  rw [drop_left]

/-- The text behind the first word of an expression. -/
def behindToken (projection : List Char) : List Char :=
  (trimStart projection).dropWhile (!isWhitespace ·)

lemma isFresh_behindToken (projection : List Char) : IsFresh (behindToken projection) := by
  intro c hc
  have := head?_dropWhile_not (!isWhitespace ·) (trimStart projection)
  rw [behindToken] at hc
  rw [Option.mem_def.mp hc] at this
  left
  simpa using this

lemma normalizedProjection_of_none (h : rowidToken projection = none)
    (first : Bool) : normalizedProjection first projection = trimStart projection := by
  rw [normalizedProjection, h]

/-- A ROWID column, and the expressions it is rewritten to. -/
structure Rewrites (projection token : List Char) : Prop where
  isRowidToken : isRowidToken token = true
  trimStart : trimStart projection = token ++ behindToken projection
  first : normalizedProjection true projection
    = rowidToChar ++ token ++ internalAlias ++ trailingWhitespace projection
  later : normalizedProjection false projection
    = rowidToChar ++ token ++ ')' :: behindToken projection

lemma rewrites_of_some (h : rowidToken projection = some token) : Rewrites projection token := by
  obtain ⟨hrowid, htok, htail⟩ := rowidToken_eq_some h
  refine ⟨hrowid, ?_, ?_, ?_⟩
  · conv_lhs => rw [← takeWhile_append_dropWhile (p := (!isWhitespace ·))
      (l := RustText.trimStart projection), ← htok]
    rfl
  · rw [normalizedProjection, h]
    rfl
  · rw [normalizedProjection, h]
    dsimp only
    rw [if_neg (by simp), append_assoc, cons_append, htail]
    rfl

/-- A rewritten column starts with the conversion. -/
lemma Rewrites.exists_eq (h : Rewrites projection token) (first : Bool) :
    ∃ text, normalizedProjection first projection = rowidToChar ++ text := by
  cases first with
  | true => exact ⟨_, by rw [h.first, append_assoc, append_assoc]⟩
  | false => exact ⟨_, by rw [h.later, append_assoc]⟩

/-- An expression starts with its white space. -/
lemma startsFlat_trimStart (projection : List Char) :
    ∃ A, StartsFlat projection (trimStart projection) A := by
  obtain ⟨ws, hws, hproj⟩ := exists_whitespace projection
  obtain ⟨A, hA⟩ := (refl (trimStart projection)).whitespaces hws
  rw [← hproj] at hA
  exact ⟨A, hA⟩

/-- An expression starts with its white space and its ROWID column. -/
lemma Rewrites.startsFlat (h : Rewrites projection token) (hT : ColumnPieces token T) :
    ∃ A, StartsFlat projection (behindToken projection) A := by
  obtain ⟨ws, hws, hproj⟩ := exists_whitespace projection
  obtain ⟨A, hA⟩ := (hT.startsFlat (isFresh_behindToken projection) (refl _)).whitespaces hws
  rw [← h.trimStart, ← hproj] at hA
  exact ⟨A, hA⟩

lemma startsFlat_internalAlias {ws : List Char} (hws : ∀ c ∈ ws, isWhitespace c) :
    ∃ text A, internalAlias ++ ws = ')' :: text ∧ StartsFlat text [] A := by
  obtain ⟨A, hA⟩ := (refl []).whitespaces hws
  rw [append_nil] at hA
  have hfresh : IsFresh ws := fun c hc => .inl (hws c (mem_of_mem_head? hc))
  have hname := hA.word (c := 'S') (w := "Q_INTERNAL_ROWID".toList) (by decide) (by decide)
    (by decide) hfresh
  obtain ⟨B, hB⟩ := hname.whitespace (c := ' ') (by decide)
  have has := hB.word (c := 'A') (w := ['S']) (by decide) (by decide) (by decide)
    (fun c hc => .inl (by obtain rfl : ' ' = c := some.inj hc; decide))
  obtain ⟨C, hC⟩ := has.whitespace (c := ' ') (by decide)
  exact ⟨_, C, rfl, hC⟩

/-- The expressions that may be rewritten. -/
def IsSafe (projection : List Char) : Prop :=
  (rowidToken projection).isSome → isRowidReference projection = true

lemma exists_columnPieces_of_isSafe (h : IsSafe projection)
    (htok : rowidToken projection = some token) : ∃ T, ColumnPieces token T := by
  have href := h (by rw [htok]; rfl)
  rw [isRowidReference, Bool.and_eq_true, ← (rowidToken_eq_some htok).2.1] at href
  exact exists_columnPieces href.1

lemma keeps_rewritten (h : IsSafe projection) (first : Bool) {ws : List Char}
    (hws : ∀ c ∈ ws, isWhitespace c) :
    Keeps projection (ws ++ normalizedProjection first projection) := by
  cases htok : rowidToken projection with
  | none =>
    obtain ⟨A, hA⟩ := startsFlat_trimStart projection
    obtain ⟨B, hB⟩ := (refl (trimStart projection)).whitespaces hws
    rw [normalizedProjection_of_none htok]
    exact hA.keeps hB
  | some token =>
    have hrewrites := rewrites_of_some htok
    obtain ⟨T, hT⟩ := exists_columnPieces_of_isSafe h htok
    cases first with
    | true =>
      obtain ⟨text, A, htext, hA⟩ :=
        startsFlat_internalAlias (isWhitespace_of_mem_trailingWhitespace (s := projection))
      obtain ⟨B, hB⟩ := hT.call hA
      obtain ⟨C, hC⟩ := hB.whitespaces hws
      rw [hrewrites.first, append_assoc, htext]
      exact hC.keeps_all projection
    | false =>
      obtain ⟨A, hA⟩ := hrewrites.startsFlat hT
      obtain ⟨B, hB⟩ := hT.call (refl (behindToken projection))
      obtain ⟨C, hC⟩ := hB.whitespaces hws
      rw [hrewrites.later]
      exact hA.keeps hC

/-! ### The rewritten list -/

/-- The expressions but an empty one at the end. -/
def dropEmptyLast : List (List Char) → List (List Char)
  | [] => []
  | [last] => if last.isEmpty then [] else [last]
  | first :: second :: rest => first :: dropEmptyLast (second :: rest)

variable {rest : List (List Char)}

lemma dropEmptyLast_cons (first : List Char) (h : rest ≠ []) :
    dropEmptyLast (first :: rest) = first :: dropEmptyLast rest := by
  obtain ⟨second, rest, rfl⟩ := exists_cons_of_ne_nil h
  rfl

variable {first : List Char}

lemma head_dropEmptyLast {first' : List Char} {rest' : List (List Char)}
    (h : dropEmptyLast (first :: rest) = first' :: rest') : first' = first := by
  cases rest with
  | nil =>
    rw [dropEmptyLast] at h
    split_ifs at h
    exact (cons.inj h).1.symm
  | cons second rest => exact (cons.inj h).1.symm

lemma cutProjections_eq {fuel : ℕ} (h : list.length ≤ fuel) :
    cutProjections fuel list = dropEmptyLast (projections list) := by
  induction fuel generalizing list with
  | zero =>
    obtain rfl : list = [] := length_eq_zero_iff.mp (Nat.le_zero.mp h)
    rfl
  | succ fuel ih =>
    rw [cutProjections]
    cases list with
    | nil => rfl
    | cons c list =>
      rw [if_neg (by simp)]
      cases hfind : findFirstTopLevelComma (c :: list) with
      | none =>
        rw [projections_of_none hfind]
        rfl
      | some n =>
        have hlt := length_drop_of_firstTopLevelComma hfind
        rw [projections_of_some hfind, dropEmptyLast_cons _ (projections_ne_nil _)]
        dsimp only
        rw [ih (by omega)]

lemma exists_intercalate_cons (first : List Char) (rest : List (List Char)) :
    ∃ tail, [','].intercalate (first :: rest) = first ++ tail := by
  cases rest with
  | nil => exact ⟨[], by simp⟩
  | cons second rest => exact ⟨_, intercalate_cons_cons.trans (append_assoc _ _ _)⟩

lemma foldl_pushProjection {rewritten : List Char} (h : rewritten ≠ [])
    (expressions : List (List Char)) :
    expressions.foldl pushProjection rewritten
      = [','].intercalate (rewritten :: expressions.map (' ' :: ·)) := by
  induction expressions generalizing rewritten with
  | nil => simp
  | cons first rest ih =>
    have hpush : pushProjection rewritten first = rewritten ++ ',' :: ' ' :: first := by
      simp [pushProjection, h]
    rw [foldl_cons, hpush, ih (by simp)]
    cases rest with
    | nil => simp
    | cons second rest => simp [intercalate_cons_cons]

/-- The rewritten expressions, with the white space that is put between them. -/
def rewrittenProjections : List (List Char) → List (List Char)
  | [] => []
  | first :: rest =>
    normalizedProjection true first :: rest.map (' ' :: normalizedProjection false ·)

lemma rewrittenSelectList_eq (hcut : dropEmptyLast (projections list) = first :: rest)
    (hfirst : normalizedProjection true first ≠ []) :
    rewrittenSelectList list = [','].intercalate (rewrittenProjections (first :: rest)) := by
  rw [rewrittenSelectList, cutProjections_eq le_rfl, hcut, normalizedProjections, foldl_cons]
  have hpush : pushProjection [] (normalizedProjection true first)
      = normalizedProjection true first := rfl
  rw [hpush, foldl_pushProjection hfirst, map_map]
  rfl

/-! ### What is kept -/

/-- An expression that is no ROWID column is unchanged except for its leading white space. -/
def Corresponds (projection rewritten : List Char) : Prop :=
  isRowidReference projection = true ∨ trimStart rewritten = trimStart projection

section

variable [UnicodeClasses] (withClauseStartsWithSelect : List Char → Bool)

/-- The statement that is sent is the statement outside the select list, and its expressions
correspond to those of the statement. -/
def KeepsProjections (sql : List Char) : Prop :=
  match selectList withClauseStartsWithSelect sql with
  | none => rowidSafeExecutionSql withClauseStartsWithSelect sql = sql
  | some found => ∃ list,
      rowidSafeExecutionSql withClauseStartsWithSelect sql = found.before ++ list ++ found.after ∧
        Forall₂ Corresponds (projections found.list) (projections list)

end

/-- Each text that is taken for a ROWID column is one, and no expression is missing at the start
or the end. -/
structure IsSafeList (expressions : List (List Char)) : Prop where
  isSafe : ∀ projection ∈ expressions, IsSafe projection
  first : ∀ first ∈ expressions.head?, trimStart first ≠ []
  last : [] ∉ expressions.getLast?

/-- The select list that is sent. -/
def sentSelectList (list : List Char) : List Char :=
  if changesSelectList list then rewrittenSelectList list else list

lemma corresponds_refl (projection : List Char) : Corresponds projection projection := .inr rfl

lemma normalizedProjection_ne_nil (h : trimStart projection ≠ [])
    (first : Bool) : normalizedProjection first projection ≠ [] := by
  cases htok : rowidToken projection with
  | none => rwa [normalizedProjection_of_none htok]
  | some token =>
    obtain ⟨text, htext⟩ := (rewrites_of_some htok).exists_eq first
    rw [htext]
    exact append_ne_nil_of_left_ne_nil (by decide) text

lemma trimStart_trimStart (s : List Char) : trimStart (trimStart s) = trimStart s :=
  dropWhile_idempotent isWhitespace s

lemma corresponds_rewritten (h : IsSafe projection) (first : Bool) {ws : List Char}
    (hws : ∀ c ∈ ws, isWhitespace c) :
    Corresponds projection (ws ++ normalizedProjection first projection) := by
  cases htok : rowidToken projection with
  | none =>
    rw [normalizedProjection_of_none htok]
    exact .inr ((trimStart_whitespace hws _).trans (trimStart_trimStart projection))
  | some token => exact .inl (h (by rw [htok]; rfl))

variable {expressions : List (List Char)}

lemma forall₂_rewrittenProjections {R : List Char → List Char → Prop}
    (h : ∀ p ∈ expressions, ∀ (first : Bool) {ws : List Char}, (∀ c ∈ ws, isWhitespace c) →
      R p (ws ++ normalizedProjection first p)) :
    Forall₂ R expressions (rewrittenProjections expressions) := by
  cases expressions with
  | nil => exact .nil
  | cons first rest =>
    refine .cons (h first mem_cons_self true (forall_mem_nil _)) ?_
    rw [forall₂_map_right_iff, forall₂_same]
    exact fun p hp => @h p (mem_cons_of_mem first hp) false [' '] (by simp [isWhitespace])

lemma dropEmptyLast_eq_self (h : [] ∉ expressions.getLast?) :
    dropEmptyLast expressions = expressions := by
  fun_induction dropEmptyLast expressions with
  | case1 => rfl
  | case2 last hlast => simp_all
  | case3 last hlast => rfl
  | case4 first second rest ih => rw [ih (by simpa using h)]

/-- The expressions of a rewritten list. -/
theorem projections_rewrittenSelectList (h : IsSafeList (projections list)) :
    projections (rewrittenSelectList list) = rewrittenProjections (projections list) := by
  obtain ⟨first, rest, hlist⟩ := exists_cons_of_ne_nil (projections_ne_nil list)
  have hfirst : normalizedProjection true first ≠ [] :=
    normalizedProjection_ne_nil (h.first first (by rw [hlist]; rfl)) true
  have hcut := dropEmptyLast_eq_self h.last
  rw [hlist] at hcut
  rw [rewrittenSelectList_eq (by rw [hlist, hcut]) hfirst, ← hlist]
  exact Keeps.projections (forall₂_rewrittenProjections fun p hp =>
    keeps_rewritten (h.isSafe p hp))

lemma changesSelectList_iff (list : List Char) : changesSelectList list ↔
    ∃ projection ∈ projections list, (rowidToken projection).isSome := by
  rw [changesSelectList, cutProjections_eq le_rfl, any_eq_true]
  generalize projections list = expressions
  fun_induction dropEmptyLast expressions with
  | case1 => rfl
  | case2 last hlast =>
    obtain rfl : last = [] := by simpa using hlast
    simp [rowidToken, leadingProjectionToken, trim, trimEnd]
  | case3 last hlast => rfl
  | case4 first second rest ih =>
    simp only [exists_mem_cons_iff] at ih ⊢
    rw [ih]

/-! ### What is lost -/

/-- The first expression of a list starts as the list does. -/
lemma projections_append {start : List Char} (h : ',' ∉ start) (rest : List Char) :
    ∃ first more, projections (start ++ rest) = (start ++ first) :: more := by
  cases hfind : findFirstTopLevelComma (start ++ rest) with
  | none => exact ⟨rest, [], projections_of_none hfind⟩
  | some n =>
    obtain ⟨-, more, -, htext⟩ := exists_segment hfind
    have hle : start.length ≤ n := by
      by_contra hlt
      apply h
      have hlen : (take n (start ++ rest)).length = n := by
        rw [length_take, length_append]
        omega
      have hget : (start ++ rest)[n]? = some ',' := by
        rw [htext, getElem?_append_right hlen.le, hlen, Nat.sub_self]
        rfl
      rw [getElem?_append_left (by omega)] at hget
      exact mem_of_getElem? hget
    refine ⟨rest.take (n - start.length), projections ((start ++ rest).drop (n + 1)), ?_⟩
    rw [projections_of_some hfind, take_append, take_of_length_le hle]

/-- Whatever follows it, an expression does not correspond to its rewritten text. -/
def Spoils (projection rewritten : List Char) : Prop :=
  ∀ rest, ∀ first ∈ (projections (rewritten ++ rest)).head?, ¬ Corresponds projection first

lemma spoils_of_not_isSafe (h : ¬ IsSafe projection) {ws : List Char}
    (hws : ∀ c ∈ ws, isWhitespace c) (text : List Char) :
    Spoils projection (ws ++ (rowidToChar ++ text)) := by
  rw [IsSafe, Classical.not_imp] at h
  obtain ⟨hsome, href⟩ := h
  obtain ⟨token, htok⟩ := Option.isSome_iff_exists.mp hsome
  obtain ⟨hrowid, htake, -⟩ := rowidToken_eq_some htok
  intro rest first hfirst hcorr
  obtain hcorr | hcorr := hcorr
  · exact href hcorr
  have hspace : ∀ c ∈ rowidToChar, isWhitespace c = false := by
    intro c hc
    have hall : rowidToChar.all (!isWhitespace ·) := by decide
    simpa using all_eq_true.mp hall c hc
  have hcomma : ',' ∉ ws ++ rowidToChar := by
    rw [mem_append, not_or]
    exact ⟨fun hmem => absurd (hws _ hmem) (by decide), by decide⟩
  obtain ⟨behind, more, hprojs⟩ := projections_append hcomma (text ++ rest)
  have hhead : first = ws ++ (rowidToChar ++ behind) := by
    rw [append_assoc, append_assoc, ← append_assoc ws, hprojs] at hfirst
    rw [← some.inj hfirst, append_assoc]
  -- the text would be one that is not taken for a ROWID column
  obtain ⟨c, w, hw⟩ : ∃ c w, rowidToChar = c :: w := ⟨'R', _, rfl⟩
  have hstart : trimStart first = rowidToChar ++ behind := by
    rw [hhead, trimStart_whitespace hws, hw, cons_append,
      trimStart_cons_of_not (hspace c (by simp [hw]))]
  rw [← hcorr, hstart, takeWhile_append_of_pos fun c hc => by simp [hspace c hc]] at htake
  have hupper : rowidToChar.map Char.toUpper = rowidToChar := by decide
  rw [isRowidToken, Bool.and_eq_true, htake, map_append, hupper] at hrowid
  exact absurd hrowid.1 (by simp)

/-- An expression and its rewritten text. -/
def RewrittenTo (projection rewritten : List Char) : Prop :=
  (IsSafe projection → Keeps projection rewritten) ∧
    (¬ IsSafe projection → Spoils projection rewritten)

lemma rewrittenTo (projection : List Char) (first : Bool) {ws : List Char}
    (hws : ∀ c ∈ ws, isWhitespace c) :
    RewrittenTo projection (ws ++ normalizedProjection first projection) := by
  refine ⟨fun h => keeps_rewritten h first hws, fun h => ?_⟩
  obtain ⟨token, htok⟩ := Option.isSome_iff_exists.mp (Classical.not_imp.mp h).1
  obtain ⟨text, htext⟩ := (rewrites_of_some htok).exists_eq first
  rw [htext]
  exact spoils_of_not_isSafe h hws text

lemma dropEmptyLast_ne_nil (h : list ≠ []) : dropEmptyLast (projections list) ≠ [] := by
  obtain ⟨c, text, rfl⟩ := exists_cons_of_ne_nil h
  rw [← cutProjections_eq le_rfl, length_cons, cutProjections, if_neg (by simp)]
  split <;> simp

/-- If the expressions correspond, each text that is taken for a ROWID column is one, and there is
no empty expression at the end. -/
theorem isSafe_of_corresponds (hlist : list ≠ []) {rewritten : List (List Char)}
    (h : Forall₂ RewrittenTo (dropEmptyLast (projections list)) rewritten)
    (hcorr : Forall₂ Corresponds (projections list) (projections ([','].intercalate rewritten))) :
    (∀ projection ∈ projections list, IsSafe projection) ∧ [] ∉ (projections list).getLast? := by
  refine projections_induction (motive := fun text expressions => text ≠ [] → ∀ rewritten,
    Forall₂ RewrittenTo (dropEmptyLast expressions) rewritten →
    Forall₂ Corresponds expressions (projections ([','].intercalate rewritten)) →
    (∀ projection ∈ expressions, IsSafe projection) ∧ [] ∉ expressions.getLast?)
    ?_ ?_ list hlist rewritten h hcorr
  · intro text hnone hne rewritten h hcorr
    rw [dropEmptyLast, if_neg (by simpa using hne)] at h
    obtain _ | ⟨hrewritten, _ | _⟩ := h
    rw [intercalate_singleton] at hcorr
    have hsafe : IsSafe text := by
      by_contra hunsafe
      obtain ⟨first, more, hfirst, -, heq⟩ := forall₂_cons_left_iff.mp hcorr
      exact hrewritten.2 hunsafe [] first (by rw [append_nil, heq]; rfl) hfirst
    exact ⟨by simpa using hsafe, by simpa using hne.symm⟩
  · intro text pieces more hseg ih _ rewritten h hcorr
    rw [dropEmptyLast_cons _ (projections_ne_nil more)] at h
    obtain _ | ⟨hrewritten, hrest⟩ := h
    rename_i q rest
    have hsafe : IsSafe text := by
      by_contra hunsafe
      obtain ⟨first, others, hfirst, -, heq⟩ := forall₂_cons_left_iff.mp hcorr
      obtain ⟨tail, htail⟩ := exists_intercalate_cons q rest
      rw [htail] at heq
      exact hrewritten.2 hunsafe tail first (by rw [heq]; rfl) hfirst
    obtain ⟨pieces', hseg'⟩ := (hrewritten.1 hsafe).segment hseg
    rcases eq_or_ne more [] with rfl | hmore
    · -- the empty expression at the end is dropped
      obtain rfl : rest = [] := forall₂_nil_left_iff.mp hrest
      rw [intercalate_singleton, hseg'.projections_end] at hcorr
      have hnil : Script.projections [] = [[]] := rfl
      exact absurd hcorr.length_eq (by simp [hnil])
    · have hne : rest ≠ [] := by
        rintro rfl
        exact dropEmptyLast_ne_nil hmore (forall₂_nil_right_iff.mp hrest)
      obtain ⟨second, rest, rfl⟩ := exists_cons_of_ne_nil hne
      rw [intercalate_cons_cons, append_assoc, singleton_append, hseg'.projections] at hcorr
      obtain ⟨hsafes, hlast⟩ := ih hmore _ hrest (forall₂_cons.mp hcorr).2
      refine ⟨forall_mem_cons.mpr ⟨hsafe, hsafes⟩, ?_⟩
      rwa [getLast?_cons_of_ne_nil (projections_ne_nil more)]

lemma findFirstTopLevelComma_of_mem
    (h : projection ∈ projections list) : findFirstTopLevelComma projection = none := by
  refine projections_induction (motive := fun _ expressions => ∀ p ∈ expressions,
    findFirstTopLevelComma p = none) ?_ ?_ list projection h
  · intro text hnone p hp
    rwa [mem_singleton.mp hp]
  · intro text pieces more hseg ih
    refine forall_mem_cons.mpr ⟨?_, ih⟩
    rw [findFirstTopLevelComma, hseg.tokens_end, hseg.noComma]

/-- A rewritten expression starts with a character that is neither white space nor a comma. -/
lemma exists_head_normalizedProjection (h : projection ∈ projections list) {first : Bool}
    (hne : normalizedProjection first projection ≠ []) :
    ∃ c text, normalizedProjection first projection = c :: text ∧ isWhitespace c = false ∧
      c ≠ ',' := by
  cases htok : rowidToken projection with
  | none =>
    rw [normalizedProjection_of_none htok] at hne ⊢
    obtain ⟨c, text, htext, hc⟩ := exists_trimStart_cons hne
    refine ⟨c, text, htext, hc, ?_⟩
    rintro rfl
    obtain ⟨A, hA⟩ := startsFlat_trimStart projection
    have hnone := findFirstTopLevelComma_of_mem h
    have htoks := hA.tokens (.inl rfl)
    rw [append_nil, append_nil, htext, tokens_comma] at htoks
    rw [findFirstTopLevelComma, htoks, findIn_append (hA.flat.noComma 0), hA.flat.depth] at hnone
    exact absurd hnone (by simp [findIn, isTopLevelComma])
  | some token =>
    obtain ⟨text, htext⟩ := (rewrites_of_some htok).exists_eq first
    exact ⟨'R', _, htext, by decide, by decide⟩

/-- The first expression that is not empty starts the rewritten list. -/
lemma foldl_pushProjection_nil (h : ∃ text ∈ expressions, text ≠ []) :
    ∃ text ∈ expressions, text ≠ [] ∧
      ∃ more, expressions.foldl pushProjection [] = text ++ more := by
  induction expressions with
  | nil => simp at h
  | cons first rest ih =>
    rw [foldl_cons]
    have hpush : pushProjection [] first = first := rfl
    rw [hpush]
    rcases eq_or_ne first [] with rfl | hfirst
    · obtain ⟨text, hmem, htext⟩ := ih (by simpa using h)
      exact ⟨text, mem_cons_of_mem _ hmem, htext⟩
    · refine ⟨first, mem_cons_self, hfirst, ?_⟩
      rw [foldl_pushProjection hfirst]
      exact exists_intercalate_cons first _

lemma rowidToken_of_blank (h : trimStart projection = []) : rowidToken projection = none := by
  have htrim : trim projection = [] := by
    by_contra hne
    exact trimStart_ne_nil hne h
  rw [rowidToken, htrim]
  rfl

lemma mem_of_mem_dropEmptyLast
    (h : projection ∈ dropEmptyLast expressions) : projection ∈ expressions := by
  fun_induction dropEmptyLast expressions with
  | case1 => exact h
  | case2 last hlast => simp at h
  | case3 last hlast => exact h
  | case4 first second rest ih =>
    rw [mem_cons] at h ⊢
    exact h.imp_right ih

lemma mem_normalizedProjections (h : text ∈ normalizedProjections expressions) :
    ∃ projection ∈ expressions, ∃ first, text = normalizedProjection first projection := by
  cases expressions with
  | nil => simp [normalizedProjections] at h
  | cons first rest =>
    rw [normalizedProjections, mem_cons, mem_map] at h
    obtain rfl | ⟨projection, hmem, rfl⟩ := h
    · exact ⟨first, mem_cons_self, true, rfl⟩
    · exact ⟨projection, mem_cons_of_mem _ hmem, false, rfl⟩

lemma normalizedProjection_mem (h : projection ∈ expressions) :
    ∃ first, normalizedProjection first projection ∈ normalizedProjections expressions := by
  cases expressions with
  | nil => simp at h
  | cons first rest =>
    obtain rfl | hmem := mem_cons.mp h
    · exact ⟨true, mem_cons_self⟩
    · exact ⟨false, mem_cons_of_mem _ (mem_map_of_mem hmem)⟩

/-- If the expressions correspond, the first one is not blank. -/
lemma first_of_corresponds
    (hlist : projections list = first :: rest) (hchanges : changesSelectList list)
    (h : Forall₂ Corresponds (projections list) (projections (rewrittenSelectList list))) :
    trimStart first ≠ [] := by
  intro hblank
  have href : isRowidReference first = false := by
    have hcolumn : isRowidColumn [] = false := by decide
    rw [isRowidReference, hblank, takeWhile_nil, hcolumn, Bool.false_and]
  obtain ⟨projection, hmem, hsome⟩ := any_eq_true.mp hchanges
  -- an expression that is rewritten is not blank
  have hexists : ∃ text ∈ normalizedProjections (cutProjections list.length list), text ≠ [] := by
    obtain ⟨b, hb⟩ := normalizedProjection_mem hmem
    refine ⟨_, hb, normalizedProjection_ne_nil (fun hnil => ?_) b⟩
    rw [rowidToken_of_blank hnil] at hsome
    exact absurd hsome (by simp)
  obtain ⟨text, htext, hne, more, hrewritten⟩ := foldl_pushProjection_nil hexists
  obtain ⟨p, hp, b, rfl⟩ := mem_normalizedProjections htext
  rw [cutProjections_eq le_rfl] at hp
  obtain ⟨c, tail, htail, hspace, hcomma⟩ :=
    exists_head_normalizedProjection (mem_of_mem_dropEmptyLast hp) hne
  have hstart : ',' ∉ [c] := by simpa using hcomma.symm
  obtain ⟨behind, others, hprojs⟩ := projections_append hstart (tail ++ more)
  rw [singleton_append] at hprojs
  rw [hlist, rewrittenSelectList, hrewritten, htail, cons_append, hprojs, forall₂_cons] at h
  obtain hfirst | hfirst := h.1
  · rw [href] at hfirst
    exact Bool.false_ne_true hfirst
  · rw [hblank, singleton_append, trimStart_cons_of_not hspace] at hfirst
    exact cons_ne_nil _ _ hfirst

theorem isSafeList_of_corresponds (hchanges : changesSelectList list)
    (h : Forall₂ Corresponds (projections list) (projections (rewrittenSelectList list))) :
    IsSafeList (projections list) := by
  obtain ⟨first, rest, hlist⟩ := exists_cons_of_ne_nil (projections_ne_nil list)
  have hfirst := first_of_corresponds hlist hchanges h
  have hne : list ≠ [] := by
    rintro rfl
    exact absurd hchanges (by decide)
  obtain ⟨first', rest', hcut⟩ := exists_cons_of_ne_nil (dropEmptyLast_ne_nil hne)
  obtain rfl : first' = first := by
    rw [hlist] at hcut
    exact head_dropEmptyLast hcut
  rw [rewrittenSelectList_eq hcut (normalizedProjection_ne_nil hfirst true)] at h
  have hrewritten :
      Forall₂ RewrittenTo (first' :: rest') (rewrittenProjections (first' :: rest')) :=
    forall₂_rewrittenProjections fun p _ => rewrittenTo p
  obtain ⟨hsafe, hlast⟩ := isSafe_of_corresponds hne (hcut ▸ hrewritten) h
  exact ⟨hsafe, fun p hp => by rw [hlist] at hp; exact some.inj hp ▸ hfirst, hlast⟩

section

variable [UnicodeClasses] (withClauseStartsWithSelect : List Char → Bool) (sql : List Char)

variable {withClauseStartsWithSelect sql} in
/-- Only the select list is looked at. -/
lemma keepsProjections_of_some {found : SelectList}
    (hfound : selectList withClauseStartsWithSelect sql = some found) :
    KeepsProjections withClauseStartsWithSelect sql ↔
      Forall₂ Corresponds (projections found.list) (projections (sentSelectList found.list)) := by
  have hsent : rowidSafeExecutionSql withClauseStartsWithSelect sql
      = found.before ++ sentSelectList found.list ++ found.after := by
    rw [rowidSafeExecutionSql, hfound, sentSelectList]
    dsimp only
    split_ifs
    · rfl
    · exact (selectList_eq hfound).symm
  rw [KeepsProjections, hfound, hsent]
  constructor
  · rintro ⟨list, hlist, hcorr⟩
    rw [append_cancel_right_eq, append_cancel_left_eq] at hlist
    rwa [hlist]
  · exact fun h => ⟨_, rfl, h⟩

/-- The select list of the statement that is sent is the one of the statement, expression for
expression, exactly if each text that is taken for a ROWID column is one, and no expression is
missing at the start or the end of a list that has one. -/
theorem keepsProjections_iff : KeepsProjections withClauseStartsWithSelect sql ↔
    ∀ found, selectList withClauseStartsWithSelect sql = some found →
      (∃ projection ∈ projections found.list, (rowidToken projection).isSome) →
        IsSafeList (projections found.list) := by
  cases hfound : selectList withClauseStartsWithSelect sql with
  | none => simp [KeepsProjections, rowidSafeExecutionSql, hfound]
  | some found =>
    simp only [some.injEq, forall_eq']
    rw [keepsProjections_of_some hfound, ← changesSelectList_iff, sentSelectList]
    by_cases hchanges : changesSelectList found.list
    · rw [if_pos hchanges]
      refine ⟨fun h _ => isSafeList_of_corresponds hchanges h, fun h => ?_⟩
      have hsafe := h hchanges
      rw [projections_rewrittenSelectList hsafe]
      exact forall₂_rewrittenProjections fun p hp => corresponds_rewritten (hsafe.isSafe p hp)
    · rw [if_neg hchanges]
      refine iff_of_true ?_ fun h => absurd h hchanges
      exact forall₂_same.mpr fun p _ => corresponds_refl p

end

/-- The expression behind the ROWID column is lost. -/
theorem rowid_expression_lost :
    @rowidSafeExecutionSql asciiClasses (fun _ => true) "SELECT ROWID || 'x' FROM t".toList
        = "SELECT ROWIDTOCHAR(ROWID) AS SQ_INTERNAL_ROWID FROM t".toList ∧
      ¬ @KeepsProjections asciiClasses (fun _ => true) "SELECT ROWID || 'x' FROM t".toList := by
  have hfound : @selectList asciiClasses (fun _ => true) "SELECT ROWID || 'x' FROM t".toList
      = some ⟨"SELECT ".toList, "ROWID || 'x' ".toList, "FROM t".toList⟩ := by
    decide +kernel
  refine ⟨by decide +kernel, ?_⟩
  rw [@keepsProjections_of_some asciiClasses _ _ _ hfound]
  intro h
  have hlists : projections "ROWID || 'x' ".toList = ["ROWID || 'x' ".toList] ∧
      projections (sentSelectList "ROWID || 'x' ".toList)
        = ["ROWIDTOCHAR(ROWID) AS SQ_INTERNAL_ROWID ".toList] := by
    decide +kernel
  rw [hlists.1, hlists.2] at h
  have hcorresponds := (forall₂_cons.mp h).1
  exact absurd hcorresponds (by unfold Corresponds; decide +kernel)

end SpaceQuery.Script
