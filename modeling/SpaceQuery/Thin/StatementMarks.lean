import SpaceQuery.Thin.StatementText

/-!
The tokens of the scanners of `tns-thin/src/exec.rs`: their lengths, the characters they mark and
the bytes at which they stand.
-/

namespace SpaceQuery.Thin

open List

open Prod hiding map_map

open Option hiding map map_map

namespace StatementText

open RustText Lexing SqlText Script BindToken

/-! ### Lengths -/

lemma throughFind_nil {pattern : List Char} : throughFind pattern [] = 0 := by
  unfold throughFind
  split <;> simp

lemma through_eq_throughFind (quote : Char) (text : List Char) :
    through (· = quote) text = throughFind [quote] text := by
  induction text with
  | nil => rw [throughFind_nil, through]
  | cons ch rest ih =>
    rw [throughFind_cons, through, ih]
    by_cases h : ch = quote
    · simp [h]
    · rw [if_neg (by simpa using h), if_neg (by simpa using Ne.symm h)]

variable {quote : Char}

lemma literalEnd_append_of_notMem {u : List Char} (hu : quote ∉ u)
    (v : List Char) : literalEnd quote (u ++ v) = u.length + literalEnd quote v := by
  induction u with
  | nil => simp
  | cons ch u ih =>
    rw [mem_cons, not_or] at hu
    have := ih hu.2
    cases huv : u ++ v with
    | nil =>
      rw [append_eq_nil_iff] at huv
      rw [huv.1, huv.2]
      rfl
    | cons next rest =>
      rw [cons_append, huv, literalEnd_cons_cons, if_neg (Ne.symm hu.1), ← huv, length_cons]
      omega

variable {n : ℕ}

/-- A quoted text that the bind parser accepts ends where the keyword scanner ends it. -/
lemma literalEnd_of_checked {text : List Char}
    (h : checkedQuotedEnd quote text = .ok n) : literalEnd quote text = n := by
  induction text using quotedLength.induct false quote generalizing n with
  | case1 => cases h
  | case2 ch =>
    rw [checkedQuotedEnd] at h
    split_ifs at h
    cases h
    rfl
  | case3 ch next rest hslash => simp at hslash
  | case4 rest _ ih =>
    rw [checkedQuotedEnd, if_pos rfl, if_pos rfl] at h
    obtain ⟨m, hm, rfl⟩ := exists_of_map_eq_ok h
    rw [literalEnd_cons_cons, if_pos rfl, if_pos rfl, ih hm]
  | case5 next rest hnext =>
    rw [checkedQuotedEnd, if_pos rfl, if_neg hnext] at h
    cases h
    rw [literalEnd_cons_cons, if_pos rfl, if_neg hnext]
  | case6 ch next rest _ hch ih =>
    rw [checkedQuotedEnd, if_neg hch] at h
    obtain ⟨m, hm, rfl⟩ := exists_of_map_eq_ok h
    rw [literalEnd_cons_cons, if_neg hch, ih hm]

variable {c : Char} {rest : List Char}

lemma isPrefixOf_pair {d e : Char} :
    [c, d].isPrefixOf (e :: rest) ↔ e = c ∧ rest.head? = some d := by
  cases rest with
  | nil => simp
  | cons f rest =>
    rw [List.isPrefixOf_iff_prefix, cons_prefix_cons, cons_prefix_cons, head?_cons, some.injEq]
    exact ⟨fun h => ⟨h.1.symm, h.2.1.symm⟩, fun h => ⟨h.1.symm, h.2.symm, List.nil_prefix⟩⟩

lemma commentEnd_eq (previous : Char) (text : List Char) : commentEnd previous text
      = if previous = '*' ∧ text.head? = some '/' then 1 else throughFind ['*', '/'] text := by
  induction text generalizing previous with
  | nil => simp [commentEnd, throughFind_nil]
  | cons next rest ih =>
    have hhead : (next :: rest).head? = some '/' ↔ next = '/' := by simp
    simp only [hhead]
    rw [commentEnd, throughFind_cons]
    by_cases h : previous = '*' ∧ next = '/'
    · rw [if_pos h, if_pos h]
    · rw [if_neg h, if_neg h, ih]
      by_cases hclose : next = '*' ∧ rest.head? = some '/'
      · rw [if_pos hclose, if_pos (isPrefixOf_pair.mpr hclose)]
        rfl
      · rw [if_neg hclose, if_neg (mt isPrefixOf_pair.mp hclose)]

/-! ### q-quotes -/

lemma qQuotePrefixLen_eq (text : List Char) :
    qQuotePrefixLen text = (delimiterRel text).map (· + 1) := by
  unfold qQuotePrefixLen delimiterRel
  grind

lemma closingEnd_eq (closing : Char) (text : List Char) :
    (closingEnd closing text).getD text.length = throughFind [closing, '\''] text := by
  induction text with
  | nil => rfl
  | cons ch rest ih =>
    rw [closingEnd, throughFind_cons]
    by_cases h : ch = closing ∧ rest.head? = some '\''
    · rw [if_pos h, if_pos (isPrefixOf_pair.mpr h)]
      rfl
    · rw [if_neg h, if_neg (mt isPrefixOf_pair.mp h), ← ih]
      cases closingEnd closing rest with
      | none => exact add_comm _ _
      | some n => rfl

lemma qQuotePrefixLen_eq_none (h : c ∉ ['q', 'Q', 'n', 'N']) :
    qQuotePrefixLen (c :: rest) = none := by
  simp only [mem_cons, not_mem_nil, or_false, not_or] at h
  rw [qQuotePrefixLen_eq, delimiterRel]
  simp [h]

lemma notMem_of_isWhitespace (h : isWhitespace c) :
    c ∉ ['q', 'Q', 'n', 'N'] ∧ c ∉ ['\'', '"', '-', '/'] ∧ c ≠ ':' := by
  refine ⟨fun hc => ?_, fun hc => ?_, ?_⟩
  · fin_cases hc <;> exact absurd h (by decide)
  · fin_cases hc <;> exact absurd h (by decide)
  · rintro rfl
    exact absurd h (by decide)

variable {space : List Char}

/-- White space and what follows it. -/
lemma span_whitespace (hspace : ∀ c ∈ space, isWhitespace c)
    (hrest : ∀ c ∈ rest.head?, isWhitespace c = false) :
    (space ++ rest).takeWhile isWhitespace = space ∧ trimStart (space ++ rest) = rest := by
  rw [trimStart_whitespace hspace, takeWhile_append_of_pos hspace]
  cases rest with
  | nil => exact ⟨append_nil _, rfl⟩
  | cons c rest =>
    have hc := hrest c rfl
    rw [takeWhile_cons_of_neg (by simp [hc]), append_nil, trimStart_cons_of_not hc]
    exact ⟨rfl, rfl⟩

lemma checkedQuotedEnd_bounds {text : List Char}
    (h : checkedQuotedEnd quote text = .ok n) : 0 < n ∧ n ≤ text.length := by
  rw [← literalEnd_of_checked h]
  constructor
  · rcases text with _ | ⟨ch, _ | ⟨next, rest⟩⟩
    · cases h
    · exact Nat.one_pos
    · rw [literalEnd_cons_cons]
      split_ifs <;> omega
  · clear h
    unfold literalEnd
    fun_induction quotedLength false quote text <;>
      simp only [length_cons, length_nil] at * <;> omega

/-- A quoted name that is not empty. -/
def StartsQuotedName (text : List Char) : Prop :=
  text.head? = some '"' ∧ ¬ (text[1]? = some '"' ∧ text[2]? ≠ some '"')

/-- A quoted name is empty if its first quote is closed at once. -/
lemma startsQuotedName_iff {tail : List Char} (h : checkedQuotedEnd '"' tail = .ok n) :
    StartsQuotedName ('"' :: tail) ↔ (tail.take n).dropLast ≠ [] := by
  have hbounds := checkedQuotedEnd_bounds h
  have hlen : (tail.take n).dropLast ≠ [] ↔ 1 < n := by
    rw [← length_pos_iff, length_dropLast, length_take]
    omega
  rw [hlen, StartsQuotedName]
  rcases tail with _ | ⟨ch, _ | ⟨next, rest⟩⟩
  · cases h
  · rw [checkedQuotedEnd] at h
    split_ifs at h with hch
    cases h
    simp [hch]
  · by_cases hch : ch = '"'
    · by_cases hnext : next = '"'
      · rw [checkedQuotedEnd, if_pos hch, if_pos hnext] at h
        obtain ⟨m, hm, rfl⟩ := exists_of_map_eq_ok h
        exact iff_of_true (by simp [hnext]) (by omega)
      · rw [checkedQuotedEnd, if_pos hch, if_neg hnext] at h
        cases h
        simp [hch, hnext]
    · rw [checkedQuotedEnd, if_neg hch] at h
      obtain ⟨m, hm, rfl⟩ := exists_of_map_eq_ok h
      have := checkedQuotedEnd_bounds hm
      simp [hch, this.1]

/-! ### Tokens -/

variable {k : Option Region}

lemma map_fst_marks (w : List Char) : (w.map fun c => (c, k)).map fst = w := by
  rw [map_map]
  exact map_id w

lemma notMem_marks_of_space (hspace : ∀ c ∈ space, isWhitespace c) :
    (':', (none : Option Region)) ∉ space.map (·, none) := by
  intro hmem
  obtain ⟨c, hc, hcolon⟩ := mem_map.mp hmem
  exact (notMem_of_isWhitespace (hspace c hc)).2.2 (mk.inj hcolon).1

lemma notMem_marks_of_region (r : Region) (w : List Char) :
    (':', (none : Option Region)) ∉ w.map (·, some r) := by
  intro hmem
  obtain ⟨_, -, hnone⟩ := mem_map.mp hmem
  simp at hnone

lemma take_lead (space name : List Char) :
    (':' :: space ++ name).take (1 + space.length) = ':' :: space := by
  rw [add_comm, ← length_cons (a := ':'), take_left]

lemma drop_lead (space name : List Char) :
    (':' :: space ++ name).drop (1 + space.length) = name := by
  rw [add_comm, ← length_cons (a := ':'), drop_left]

lemma BindToken.marks_name (lead : ℕ) (w : List Char) : (name lead).marks w = w.map (·, none) := rfl

lemma BindToken.marks_quotedName (lead : ℕ) (w : List Char) : (quotedName lead).marks w
      = (w.take lead).map (·, none) ++ (w.drop lead).map (·, some .quotedIdentifier) := rfl

/-- A quoted name without characters is no name. -/
def Unquoted (token : BindToken × List Char) : Prop :=
  ∀ lead, token.1 = .quotedName lead → token.1.find token.2 = none

lemma unquoted_of_ne {token : BindToken} {w : List Char} (h : ∀ lead, token ≠ .quotedName lead) :
    Unquoted (token, w) := fun lead htok => absurd htok (h lead)

lemma unquoted_quotedName {tail : List Char} :
    Unquoted (.quotedName (1 + space.length), ':' :: space ++ '"' :: tail.take n) ↔
      (tail.take n).dropLast = [] := by
  have hfind : (BindToken.quotedName (1 + space.length)).find (':' :: space ++ '"' :: tail.take n)
      = none ↔ (tail.take n).dropLast = [] := by
    rw [find, ← drop_drop, drop_lead]
    simp
  exact ⟨fun h => hfind.mp (h _ rfl), fun h lead _ => hfind.mpr h⟩

lemma KeywordToken.marks_fst (token : KeywordToken) (w : List Char) :
    (token.marks w).map fst = w := by
  cases token <;> exact map_fst_marks w

lemma BindToken.marks_fst (token : BindToken) (w : List Char) : (token.marks w).map fst = w := by
  cases token with
  | quotedName lead =>
    rw [marks_quotedName, map_append, map_fst_marks, map_fst_marks, take_append_drop]
  | _ => exact map_fst_marks w

/-! ### Positions -/

lemma ofBytes_append (m m' : List (Char × Option Region)) :
    ofBytes (m ++ m') = ofBytes m ++ ofBytes m' := flatMap_append

lemma length_ofBytes (m : List (Char × Option Region)) :
    (ofBytes m).length = byteLen (m.map fst) := by
  rw [ofBytes, byteLen]
  simp [Function.comp_def]

/-- The marks of the bytes tell those of the characters. -/
lemma ofBytes_injective {m m' : List (Char × Option Region)}
    (hchars : m.map fst = m'.map fst) (h : ofBytes m = ofBytes m') : m = m' := by
  induction m generalizing m' with
  | nil =>
    cases m' with
    | nil => rfl
    | cons x m' => simp at hchars
  | cons x m ih =>
    cases m' with
    | nil => simp at hchars
    | cons y m' =>
      rw [map_cons, map_cons, cons.injEq] at hchars
      rw [ofBytes, flatMap_cons, hchars.1] at h
      obtain ⟨hfirst, hrest⟩ := append_inj h (by simp)
      rw [ih hchars.2 hrest]
      have hsize := y.1.utf8Size_pos
      have hmark : x.2 = y.2 := by
        have := congrArg head? hfirst
        rw [head?_replicate, head?_replicate] at this
        simpa [hsize.ne'] using this
      rw [Prod.ext hchars.1 hmark]

/-- The bytes of an occurrence are code. -/
def Outside (skips : List (Option Region)) (occurrence : ℕ × List Char) : Prop :=
  ∀ p, occurrence.1 ≤ p → p < occurrence.1 + byteLen occurrence.2 → skips[p]? = some none

lemma ofBytes_map (w : List Char) (k : Option Region) :
    ofBytes (w.map (·, k)) = replicate (byteLen w) k := by
  induction w with
  | nil => rfl
  | cons c w ih =>
    rw [map_cons, ofBytes, flatMap_cons, ← ofBytes, ih, replicate_append_replicate]
    rfl

/-- The bytes of characters with one mark. -/
lemma getElem?_ofBytes {A C : List (Char × Option Region)} {w : List Char}
    {p : ℕ} (hp : byteLen (A.map fst) ≤ p) (hlt : p < byteLen (A.map fst) + byteLen w) :
    (ofBytes (A ++ (w.map (·, k) ++ C)))[p]? = some k := by
  rw [← length_ofBytes] at hp hlt
  rw [ofBytes_append, ofBytes_append, ofBytes_map, getElem?_append_right hp,
    getElem?_append_left (by rw [length_replicate]; omega), getElem?_replicate,
    if_pos (by omega)]

/-- An occurrence belongs to a token. -/
lemma mem_occurrences {κ : Type} {find : κ → List Char → Option (List Char × List Char)}
    {offset : ℕ} {tokens : List (κ × List Char)} {occurrence : ℕ × List Char} :
    occurrence ∈ occurrences find offset tokens ↔ ∃ P token R lead, tokens = P ++ token :: R ∧
        find token.1 token.2 = some (lead, occurrence.2) ∧
        occurrence.1 = offset + byteLen (P.flatMap snd) + byteLen lead := by
  induction tokens generalizing offset with
  | nil => simp [occurrences]
  | cons token tokens ih =>
    rw [occurrences, mem_append, ih]
    constructor
    · rintro (h | ⟨P, t, R, lead, rfl, hfind, hstart⟩)
      · rw [mem_toList, map_eq_some_iff] at h
        obtain ⟨⟨lead, name⟩, hfind, rfl⟩ := h
        exact ⟨[], token, tokens, lead, rfl, hfind, rfl⟩
      · refine ⟨token :: P, t, R, lead, rfl, hfind, ?_⟩
        rw [flatMap_cons, byteLen_append]
        omega
    · rintro ⟨P, t, R, lead, htoks, hfind, hstart⟩
      cases P with
      | nil =>
        cases htoks
        left
        rw [mem_toList, map_eq_some_iff]
        exact ⟨_, hfind, Prod.ext hstart.symm rfl⟩
      | cons x P =>
        cases htoks
        refine .inr ⟨P, t, R, lead, rfl, hfind, ?_⟩
        rw [hstart, flatMap_cons, byteLen_append]
        omega

section Marks

variable {κ : Type} {marks : κ → List Char → List (Char × Option Region)}

lemma flatMap_marks_fst (hfst : ∀ k w, (marks k w).map fst = w) (tokens : List (κ × List Char)) :
    (tokens.flatMap fun token => marks token.1 token.2).map fst = tokens.flatMap snd := by
  induction tokens with
  | nil => rfl
  | cons token tokens ih =>
    rw [flatMap_cons, flatMap_cons, map_append, hfst, ih]

/-- What the tokens mark an occurrence as. -/
lemma getElem?_occurrence (hfst : ∀ k w, (marks k w).map fst = w)
    {P R : List (κ × List Char)} {token : κ × List Char} {lead name : List Char}
    {A C : List (Char × Option Region)}
    (hmarks : marks token.1 token.2 = A ++ (name.map (·, k) ++ C)) (hlead : A.map fst = lead)
    {p : ℕ} (hp : byteLen (P.flatMap snd) + byteLen lead ≤ p)
    (hlt : p < byteLen (P.flatMap snd) + byteLen lead + byteLen name) :
    (ofBytes ((P ++ token :: R).flatMap fun token => marks token.1 token.2))[p]? = some k := by
  have hstart : byteLen (((P.flatMap fun token => marks token.1 token.2) ++ A).map fst)
      = byteLen (P.flatMap snd) + byteLen lead := by
    rw [map_append, flatMap_marks_fst hfst, hlead, byteLen_append]
  rw [flatMap_append, flatMap_cons, hmarks, append_assoc, append_assoc, ← append_assoc _ A]
  refine getElem?_ofBytes ?_ ?_ <;> omega

end Marks

/-- A name without quotes is code. -/
lemma bindName_outside {tokens : List (BindToken × List Char)}
    (hquoted : ∀ token ∈ tokens, Unquoted token) {name : ℕ × List Char}
    (h : name ∈ occurrences find 0 tokens) :
    Outside (ofBytes (tokens.flatMap fun token => token.1.marks token.2)) name := by
  obtain ⟨P, ⟨kind, w⟩, R, lead, rfl, hfind, hstart⟩ := mem_occurrences.mp h
  intro p hp hlt
  rw [hstart, zero_add] at hp hlt
  cases kind with
  | name n =>
    obtain ⟨rfl, hname⟩ := mk.inj (some.inj hfind)
    refine getElem?_occurrence marks_fst (A := (w.take n).map (·, none)) (C := []) ?_
      (map_fst_marks _) hp hlt
    rw [← hname, append_nil, ← map_append, take_append_drop]
    rfl
  | quotedName n =>
    have hnone := hquoted (.quotedName n, w) (by simp) n rfl
    rw [hnone] at hfind
    cases hfind
  | _ => cases hfind

/-- A quoted name is not. -/
lemma unquoted_of_outside {tokens : List (BindToken × List Char)}
    (h : ∀ name ∈ occurrences find 0 tokens,
      Outside (ofBytes (tokens.flatMap fun token => token.1.marks token.2)) name) :
    ∀ token ∈ tokens, Unquoted token := by
  rintro ⟨kind, w⟩ hmem n rfl
  obtain ⟨P, R, rfl⟩ := append_of_mem hmem
  by_contra hfind
  obtain ⟨⟨lead, name⟩, hfind⟩ := ne_none_iff_exists'.mp hfind
  have hfind' := hfind
  rw [find] at hfind'
  split_ifs at hfind' with hempty
  obtain ⟨hlead, hname⟩ := mk.inj (some.inj hfind')
  have hne : name ≠ [] := by
    rw [← hname]
    simpa using hempty
  have hcode := h (0 + byteLen (P.flatMap snd) + byteLen lead, name)
    (mem_occurrences.mpr ⟨P, _, R, lead, rfl, hfind, rfl⟩) _ le_rfl
    (Nat.lt_add_of_pos_right (byteLen_pos hne))
  -- the quote in front of the name, the name and the quote behind it
  have hmarks : (quotedName n).marks w
      = ((w.take n).map (·, none) ++ ((w.drop n).take 1).map (·, some .quotedIdentifier))
        ++ (name.map (·, some .quotedIdentifier)
          ++ [(w.drop (n + 1)).getLast (fun hnil => by simp [hnil] at hempty)].map
            (·, some .quotedIdentifier)) := by
    rw [marks_quotedName, append_assoc, ← map_append, ← map_append,
      ← hname, dropLast_append_getLast, ← drop_drop, take_append_drop]
  have hstart : ((w.take n).map (·, (none : Option Region))
      ++ ((w.drop n).take 1).map (·, some Region.quotedIdentifier)).map fst = lead := by
    rw [map_append, map_fst_marks, map_fst_marks, ← take_add, ← hlead]
  have hquoted : (ofBytes ((P ++ (quotedName n, w) :: R).flatMap fun token =>
      token.1.marks token.2))[byteLen (P.flatMap snd) + byteLen lead]?
        = some (some .quotedIdentifier) :=
    getElem?_occurrence marks_fst hmarks hstart le_rfl (Nat.lt_add_of_pos_right (byteLen_pos hne))
  rw [zero_add] at hcode
  rw [hcode] at hquoted
  cases hquoted

/-- The keywords at which the tail is cut. -/
lemma exists_of_returningIntoEnd {first : Option String} {seen : Bool}
    {words : List (ℕ × List Char)} {stop : ℕ} (h : returningIntoEnd first seen
      (words.map fun word => (asciiUppercase word.2, word.1 + byteLen word.2)) = some stop) :
    (seen ∨ ∃ returning ∈ words,
      asciiUppercase returning.2 = "RETURNING" ∨ asciiUppercase returning.2 = "RETURN") ∧
    ∃ into ∈ words, asciiUppercase into.2 = "INTO" ∧ into.1 + byteLen into.2 = stop := by
  induction words generalizing first seen with
  | nil => cases h
  | cons word words ih =>
    rw [map_cons, returningIntoEnd] at h
    split_ifs at h with hret hinto
    · obtain ⟨-, into, hmem, hword⟩ := ih h
      exact ⟨.inr ⟨word, mem_cons_self, hret⟩, into, mem_cons_of_mem _ hmem, hword⟩
    · obtain ⟨hseen, hword⟩ := hinto
      exact ⟨.inl hseen, word, mem_cons_self, hword, some.inj h⟩
    · obtain ⟨hseen, into, hmem, hword⟩ := ih h
      refine ⟨?_, into, mem_cons_of_mem _ hmem, hword⟩
      rcases hseen with hseen | ⟨returning, hmem', hword'⟩
      · exact .inl hseen
      · exact .inr ⟨returning, mem_cons_of_mem _ hmem', hword'⟩

end StatementText

end SpaceQuery.Thin
