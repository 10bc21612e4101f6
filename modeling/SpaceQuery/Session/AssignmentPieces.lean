import SpaceQuery.Session.SetAssignments

/-!
The scanners of `SET` assignments against the pieces of a text. A quote in a text goes up to the
next quote of its kind that is neither doubled nor behind a backslash.
-/

namespace SpaceQuery.SetAssignments

open List RustText SqlText Script Classify Utf8 Lexing

/-! ### Pieces -/

lemma isMysqlQuote_iff {c : Char} : isMysqlQuote c ↔ c = '\'' ∨ c = '"' ∨ c = '\x60' := by
  simp [isMysqlQuote, or_assoc]

def textOf (ps : Pieces) : List Char := (ps.map Prod.snd).flatten

lemma textOf_pieces (text : List Char) : textOf (pieces text) = text :=
  quoteLexer.tokens_flatten [] text

/-- The pieces do not depend on what stands before. -/
lemma quoteLexer_tokens (before text : List Char) :
    quoteLexer.tokens before text = pieces text := by
  have hnext : ∀ text, quoteLexer.next before text = quoteLexer.next [] text := fun _ => rfl
  exact quoteLexer.tokens_congr_before (fun _ _ _ _ => rfl) hnext text

lemma pieces_quote {c : Char} (hc : isMysqlQuote c) (rest : List Char) :
    pieces (c :: rest) = (.quoted, c :: rest.take (quotedLength true c rest))
      :: pieces (rest.drop (quotedLength true c rest)) := by
  have hnext : quoteLexer.next [] (c :: rest) = (.quoted, 1 + quotedLength true c rest) := by
    change quoteNext (c :: rest) = _
    rw [quoteNext, if_pos hc]
  rw [pieces, Lexer.tokens_cons, hnext, quoteLexer_tokens, add_comm 1, take_succ_cons,
    drop_succ_cons]

lemma pieces_code {c : Char} (hc : isMysqlQuote c = false) (rest : List Char) :
    pieces (c :: rest) = (.code, [c]) :: pieces rest := by
  have hnext : quoteLexer.next [] (c :: rest) = (.code, 1) := by
    change quoteNext (c :: rest) = _
    rw [quoteNext, if_neg (by simp [hc])]
  rw [pieces, Lexer.tokens_cons, hnext, quoteLexer_tokens, take_succ_cons, take_zero,
    drop_succ_cons, drop_zero]

/-- An induction over the pieces of a text. -/
@[elab_as_elim]
lemma pieces_induction {motive : List Char → Prop} (nil : motive [])
    (quote : ∀ c rest, isMysqlQuote c → motive (rest.drop (quotedLength true c rest)) →
      motive (c :: rest))
    (code : ∀ c rest, isMysqlQuote c = false → motive rest → motive (c :: rest))
    (text : List Char) : motive text := by
  induction hn : text.length using Nat.strong_induction_on generalizing text with
  | _ n ih =>
    cases text with
    | nil => exact nil
    | cons c rest =>
      rw [length_cons] at hn
      cases hc : isMysqlQuote c with
      | true => exact quote c rest hc (ih _ (by rw [length_drop]; omega) _ rfl)
      | false => exact code c rest hc (ih _ (by omega) _ rfl)

/-! ### The operator of an assignment -/

/-- The text in front of the first `=` or `:=` outside of quotes and parentheses, and the text
behind it. -/
def splitAssignment : ℕ → Pieces → Option (List Char × List Char)
  | _, [] => none
  | depth, piece :: ps =>
    if piece = (.code, ['=']) ∧ depth = 0 then some ([], textOf ps)
    else if piece = (.code, [':']) ∧ depth = 0 ∧ ps.head? = some (.code, ['=']) then
      some ([], textOf ps.tail)
    else (splitAssignment (depthAfter depth piece) ps).map fun (target, value) =>
      (piece.2 ++ target, value)

/-- What the loop finds in a text. -/
def FindsSplit (text : List Char) (idx : ℕ) (found : Option (ℕ × ℕ)) :
    Option (List Char × List Char) → Prop
  | none => found = none
  | some (target, value) => ∃ operator, text = target ++ (operator ++ value) ∧
      byteLen operator = operator.length ∧ found = some (idx + byteLen target, operator.length)

lemma FindsSplit.prepend {text front : List Char} {idx : ℕ} {found : Option (ℕ × ℕ)}
    {split : Option (List Char × List Char)}
    (h : FindsSplit text (idx + byteLen front) found split) : FindsSplit (front ++ text) idx found
      (split.map fun (target, value) => (front ++ target, value)) := by
  cases split with
  | none => exact h
  | some parts =>
    obtain ⟨operator, htext, hlen, hfound⟩ := h
    refine ⟨operator, by rw [htext, append_assoc], hlen, ?_⟩
    rw [hfound, byteLen_append]
    congr 2
    omega

/-- The operator stands between characters. -/
lemma findOperator_spec (ps : Pieces) (depth idx : ℕ) :
    FindsSplit (textOf ps) idx (findOperator depth idx ps) (splitAssignment depth ps) := by
  induction ps generalizing depth idx with
  | nil => rfl
  | cons piece ps ih =>
    rw [findOperator, splitAssignment]
    by_cases hassign : piece = (.code, ['=']) ∧ depth = 0
    · rw [if_pos hassign, if_pos hassign, hassign.1]
      exact ⟨['='], rfl, rfl, rfl⟩
    rw [if_neg hassign, if_neg hassign]
    by_cases hcolon : piece = (.code, [':']) ∧ depth = 0 ∧ ps.head? = some (.code, ['='])
    · obtain ⟨tail, rfl⟩ := head?_eq_some_iff.mp hcolon.2.2
      rw [if_pos hcolon, if_pos hcolon, hcolon.1]
      exact ⟨[':', '='], rfl, rfl, rfl⟩
    rw [if_neg hcolon, if_neg hcolon]
    exact (ih _ _).prepend

/-- **The target and the value of an assignment** are split between characters. -/
theorem mysqlSetAssignmentTargetAndValue_eq (assignment : List Char) :
    mysqlSetAssignmentTargetAndValue assignment = some (splitAssignment 0 (pieces assignment)) := by
  have hfind := findOperator_spec (pieces assignment) 0 0
  rw [textOf_pieces] at hfind
  rw [mysqlSetAssignmentTargetAndValue]
  cases hsplit : splitAssignment 0 (pieces assignment) with
  | none =>
    rw [hsplit] at hfind
    rw [show findOperator 0 0 (pieces assignment) = none from hfind]
  | some parts =>
    obtain ⟨target, value⟩ := parts
    rw [hsplit] at hfind
    obtain ⟨operator, htext, hlen, hfound⟩ := hfind
    have hfrom : getFromByte (byteLen target + operator.length) assignment = some value := by
      rw [← hlen, ← byteLen_append, htext, ← append_assoc, getFromByte_append]
    have hto : getToByte (byteLen target) assignment = some target := by
      rw [htext, getToByte_append]
    rw [hfound, zero_add]
    dsimp only
    rw [hto, hfrom]
    rfl

/-! ### Assignments -/

/-- The texts between the commas outside of quotes and parentheses. -/
def topLevelParts : ℕ → Pieces → List (List Char)
  | _, [] => [[]]
  | depth, piece :: ps =>
    if piece = (.code, [',']) ∧ depth = 0 then [] :: topLevelParts depth ps
    else prependText piece.2 (topLevelParts (depthAfter depth piece) ps)

lemma prependText_append (front text : List Char) {parts : List (List Char)} (h : parts ≠ []) :
    prependText (front ++ text) parts = prependText front (prependText text parts) := by
  obtain ⟨part, parts, rfl⟩ := exists_cons_of_ne_nil h
  simp [prependText]

lemma splitUnquoted_ne_nil (quote : Option Char) (depth : ℕ) (text : List Char) :
    splitUnquoted quote depth text ≠ [] := by
  have hprepend : ∀ (front : List Char) parts, prependText front parts ≠ [] := by
    intro front parts
    cases parts <;> simp [prependText]
  fun_cases splitUnquoted quote depth text <;> simp [hprepend]

/-- Inside of a quote, the loop goes to its end. -/
lemma splitUnquoted_quoted (quote : Char) (depth : ℕ) (text : List Char) :
    splitUnquoted (some quote) depth text = prependText (text.take (quotedLength true quote text))
        (splitUnquoted none depth (text.drop (quotedLength true quote text))) := by
  induction text using quotedLength.induct true quote with
  | case1 => rfl
  | case2 c => rfl
  | case3 c d rest hslash ih =>
    have hc : c = '\\' := by simpa using hslash
    rw [splitUnquoted, if_pos hc, ih, quotedLength, if_pos hslash, add_comm 2,
      ← prependText_append _ _ (splitUnquoted_ne_nil _ _ _)]
    rfl
  | case4 rest hslash ih =>
    have hc : ¬ quote = '\\' := by simpa using hslash
    rw [splitUnquoted, if_neg hc, if_pos rfl, if_pos rfl, ih, quotedLength, if_neg hslash,
      if_pos rfl, if_pos rfl, add_comm 2, ← prependText_append _ _ (splitUnquoted_ne_nil _ _ _)]
    rfl
  | case5 d rest hd hslash =>
    have hc : ¬ quote = '\\' := by simpa using hslash
    rw [splitUnquoted, if_neg hc, if_pos rfl, if_neg hd, quotedLength, if_neg hslash, if_pos rfl,
      if_neg hd]
    rfl
  | case6 c d rest hslash hc ih =>
    have hc' : ¬ c = '\\' := by simpa using hslash
    rw [splitUnquoted, if_neg hc', if_neg hc, ih, quotedLength, if_neg hslash, if_neg hc,
      add_comm 1, ← prependText_append _ _ (splitUnquoted_ne_nil _ _ _)]
    rfl

/-- **The assignments are split at the commas outside of quotes and parentheses.** -/
theorem mysqlSplitUnquotedAssignments_eq (input : List Char) :
    mysqlSplitUnquotedAssignments input = topLevelParts 0 (pieces input) := by
  suffices h : ∀ text depth, splitUnquoted none depth text = topLevelParts depth (pieces text) from
    h input 0
  intro text
  induction text using pieces_induction with
  | nil =>
    intro depth
    rfl
  | quote c rest hc ih =>
    intro depth
    have hdepth : depthAfter depth (.quoted, c :: rest.take (quotedLength true c rest))
        = depth := by
      simp [depthAfter]
    rw [splitUnquoted, if_pos hc, splitUnquoted_quoted, pieces_quote hc, topLevelParts,
      hdepth, ← ih, ← prependText_append _ _ (splitUnquoted_ne_nil _ _ _)]
    rfl
  | code c rest hc ih =>
    intro depth
    rw [splitUnquoted, if_neg (by simp [hc]), pieces_code hc, topLevelParts]
    by_cases hopen : c = '('
    · subst hopen
      rw [ih]
      rfl
    by_cases hclose : c = ')'
    · subst hclose
      rw [if_neg hopen, ih]
      rfl
    rw [if_neg hopen, if_neg hclose]
    by_cases hcomma : c = ',' ∧ depth = 0
    · obtain ⟨rfl, rfl⟩ := hcomma
      rw [if_pos (by decide), if_pos ⟨rfl, rfl⟩, ih]
    rw [if_neg (by simpa using hcomma), if_neg (by simpa using hcomma), depthAfter,
      if_neg (by simpa using hopen), if_neg (by simpa using hclose), ih]

end SpaceQuery.SetAssignments
