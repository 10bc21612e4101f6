import Mathlib.Tactic

/-!
Texts read from their start, one token after the other. A `Lexer` says what kind of token stands at
the start of a text and how long it is; it may look at what stands before, nearest first.
-/

namespace Lexing

open Prod List

/-- What stands at the start of a text. -/
structure Lexer (α κ : Type*) where
  /-- The kind and the length of the first token of `text`, with `before` in front of it. -/
  next (before text : List α) : κ × ℕ
  /-- A token has a character. -/
  next_pos (before text : List α) : 0 < (next before text).2

variable {α κ : Type*} (L : Lexer α κ)

namespace Lexer

/-- The tokens of a text, at most `fuel` of them. -/
def tokensFrom : ℕ → List α → List α → List (κ × List α)
  | 0, _, _ => []
  | _ + 1, _, [] => []
  | fuel + 1, before, c :: rest =>
    let token := L.next before (c :: rest)
    let word := (c :: rest).take token.2
    (token.1, word) :: tokensFrom fuel (word.reverse ++ before) ((c :: rest).drop token.2)

/-- The tokens of a text that has `before` in front of it. -/
def tokens (before text : List α) : List (κ × List α) := L.tokensFrom text.length before text

@[simp] lemma tokens_nil (before : List α) : L.tokens before [] = [] := rfl

variable {before text rest w : List α} {k : κ} {R : List (κ × List α)}

/-- More fuel than characters makes no difference. -/
lemma tokensFrom_of_le {fuel : ℕ} (h : text.length ≤ fuel) :
    L.tokensFrom fuel before text = L.tokens before text := by
  induction hn : text.length using Nat.strong_induction_on generalizing fuel before text with
  | _ n ih =>
    cases text with
    | nil => cases fuel <;> rfl
    | cons c rest =>
      obtain ⟨fuel, rfl⟩ : ∃ k, fuel = k + 1 := ⟨fuel - 1, by simp at h; omega⟩
      have hpos := L.next_pos before (c :: rest)
      have hlt : ((c :: rest).drop (L.next before (c :: rest)).2).length < n := by
        rw [length_drop]
        have : 0 < (c :: rest).length := by simp
        omega
      rw [tokens, length_cons, tokensFrom, tokensFrom, ih _ hlt (by omega) rfl,
        ih _ hlt (by rw [length_cons] at hn; omega) rfl]

lemma tokens_cons (before : List α) (c : α) (rest : List α) : L.tokens before (c :: rest)
      = ((L.next before (c :: rest)).1, (c :: rest).take (L.next before (c :: rest)).2)
        :: L.tokens (((c :: rest).take (L.next before (c :: rest)).2).reverse ++ before)
          ((c :: rest).drop (L.next before (c :: rest)).2) := by
  have hpos := L.next_pos before (c :: rest)
  rw [tokens, length_cons, tokensFrom, tokensFrom_of_le]
  rw [length_drop, length_cons]
  omega

/-- An induction over the tokens of a text. -/
@[elab_as_elim]
theorem tokens_induction {motive : List α → List α → Prop} (nil : ∀ before, motive before [])
    (cons : ∀ before c rest,
      motive (((c :: rest).take (L.next before (c :: rest)).2).reverse ++ before)
        ((c :: rest).drop (L.next before (c :: rest)).2) → motive before (c :: rest))
    (before text : List α) : motive before text := by
  induction hn : text.length using Nat.strong_induction_on generalizing before text with
  | _ n ih =>
    cases text with
    | nil => exact nil before
    | cons c rest =>
      have hpos := L.next_pos before (c :: rest)
      refine cons before c rest (ih _ ?_ _ _ rfl)
      rw [length_drop, ← hn, length_cons]
      omega

/-- The tokens are the text. -/
theorem tokens_flatten (before text : List α) :
    ((L.tokens before text).map snd).flatten = text := by
  induction before, text using L.tokens_induction with
  | nil before => rfl
  | cons before c rest ih =>
    rw [tokens_cons, map_cons, flatten_cons, ih, take_append_drop]

/-- A text that starts with a token. -/
lemma tokens_of_next (hw : w ≠ []) (h : L.next before (w ++ rest) = (k, w.length)) :
    L.tokens before (w ++ rest) = (k, w) :: L.tokens (w.reverse ++ before) rest := by
  obtain ⟨c, tail, rfl⟩ := exists_cons_of_ne_nil hw
  rw [cons_append] at h ⊢
  rw [tokens_cons, h]
  simp

/-- What is read behind some of the tokens of a text. -/
lemma exists_of_tokens_eq_append {P : List (κ × List α)} (h : L.tokens before text = P ++ R) :
    ∃ rest, text = (P.map snd).flatten ++ rest ∧
      L.tokens ((P.map snd).flatten.reverse ++ before) rest = R := by
  induction P generalizing before text with
  | nil => exact ⟨text, rfl, h⟩
  | cons token P ih =>
    cases text with
    | nil => simp at h
    | cons c text =>
      rw [tokens_cons, cons_append, cons.injEq] at h
      obtain ⟨rfl, h⟩ := h
      obtain ⟨rest, hrest, hR⟩ := ih h
      refine ⟨rest, ?_, ?_⟩
      · rw [map_cons, flatten_cons, append_assoc, ← hrest, take_append_drop]
      · simpa using hR

/-- What stands before a text is of no account if it is of none for its first token. -/
lemma tokens_congr_before (hhead : ∀ c before before' text,
      L.next (c :: before) text = L.next (c :: before') text) {before' : List α}
    (h : ∀ text, L.next before text = L.next before' text) (text : List α) :
    L.tokens before text = L.tokens before' text := by
  induction before, text using L.tokens_induction generalizing before' with
  | nil before => rfl
  | cons before c rest ih =>
    have hpos := L.next_pos before (c :: rest)
    have hword : (c :: rest).take (L.next before (c :: rest)).2 ≠ [] := by
      rw [ne_eq, take_eq_nil_iff, not_or]
      exact ⟨hpos.ne', cons_ne_nil _ _⟩
    obtain ⟨d, tail, htail⟩ := exists_cons_of_ne_nil (reverse_ne_nil_iff.mpr hword)
    rw [tokens_cons, tokens_cons, ← h]
    refine congrArg _ (ih fun text => ?_)
    rw [htail]
    exact hhead _ _ _ _

/-- The first token of a text, of which others are left. -/
lemma next_of_tokens_cons (hrest : rest ≠ []) (h : L.tokens before (w ++ rest) = (k, w) :: R) :
    w ≠ [] ∧ L.next before (w ++ rest) = (k, w.length) ∧
      L.tokens (w.reverse ++ before) rest = R := by
  obtain ⟨c, more, hmore⟩ := exists_cons_of_ne_nil (append_ne_nil_of_right_ne_nil w hrest)
  have hcons := L.tokens_cons before c more
  have hpos := L.next_pos before (w ++ rest)
  rw [← hmore, h, cons.injEq, Prod.mk.injEq] at hcons
  obtain ⟨⟨hk, hw⟩, hR⟩ := hcons
  -- the token is shorter than the text, so that its length is the one that was read
  have hlen : (L.next before (w ++ rest)).2 = w.length := by
    have := congrArg length hw
    rw [length_take, length_append] at this
    have := length_pos_iff.mpr hrest
    omega
  rw [hlen, take_left, drop_left] at hR
  rw [hlen] at hpos
  exact ⟨length_pos_iff.mp hpos, Prod.ext hk.symm hlen, hR.symm⟩

/-- What follows a text may be exchanged if no token of the text looks at it. -/
lemma tokens_exchange {rest' : List α} (hrest : rest ≠ [])
    (hnext : ∀ before w, w ≠ [] → (L.next before (w ++ rest)).2 ≤ w.length →
      L.next before (w ++ rest') = L.next before (w ++ rest)) {P : List (κ × List α)}
    (h : L.tokens before ((P.map snd).flatten ++ rest) = P ++ R) :
    L.tokens before ((P.map snd).flatten ++ rest')
      = P ++ L.tokens ((P.map snd).flatten.reverse ++ before) rest' := by
  induction P generalizing before with
  | nil => rfl
  | cons token P ih =>
    obtain ⟨k, w⟩ := token
    rw [map_cons, flatten_cons, append_assoc] at h ⊢
    obtain ⟨hw, hfirst, hP⟩ := L.next_of_tokens_cons (append_ne_nil_of_right_ne_nil _ hrest) h
    have hsame := hnext before (w ++ (P.map snd).flatten) (append_ne_nil_of_left_ne_nil hw _) (by
        rw [append_assoc, hfirst, length_append]
        exact Nat.le_add_right _ _)
    rw [append_assoc, append_assoc, hfirst] at hsame
    rw [L.tokens_of_next hw hsame, ih hP]
    simp

/-! ### Cuts -/

/-- A token ends at a position of a text, or the text starts there. -/
def IsCut (before text : List α) (position : ℕ) : Prop :=
  ∃ P R, L.tokens before text = P ++ R ∧ (P.map snd).flatten.length = position

lemma isCut_zero (before text : List α) : L.IsCut before text 0 :=
  ⟨[], _, rfl, rfl⟩

/-- A cut behind the first token is one of the rest. -/
lemma isCut_iff_of_next {n : ℕ} (hw : w ≠ []) (h : L.next before (w ++ rest) = (k, w.length))
    (hn : w.length ≤ n) :
    L.IsCut before (w ++ rest) n ↔ L.IsCut (w.reverse ++ before) rest (n - w.length) := by
  have hpos := length_pos_iff.mpr hw
  unfold IsCut
  rw [L.tokens_of_next hw h]
  constructor
  · rintro ⟨P, R, hP, hlen⟩
    cases P with
    | nil =>
      simp at hlen
      omega
    | cons token P =>
      obtain ⟨rfl, htail⟩ := cons.inj hP
      refine ⟨P, R, htail, ?_⟩
      rw [map_cons, flatten_cons, length_append] at hlen
      dsimp only at hlen
      omega
  · rintro ⟨P, R, hP, hlen⟩
    refine ⟨(k, w) :: P, R, by rw [hP, cons_append], ?_⟩
    rw [map_cons, flatten_cons, length_append]
    dsimp only
    omega

/-- There is no cut inside of the first token. -/
lemma not_isCut_of_lt {n : ℕ} (hn : 0 < n) (h : n < (L.next before text).2)
    (hle : n < text.length) : ¬ L.IsCut before text n := by
  rintro ⟨P, R, hP, hlen⟩
  cases text with
  | nil => simp at hle
  | cons c rest =>
    cases P with
    | nil =>
      simp at hlen
      omega
    | cons token P =>
      obtain ⟨rfl, -⟩ := cons.inj hP
      rw [map_cons, flatten_cons, length_append, length_take] at hlen
      omega

/-- Whether the start of a text ends with a token can be read from the start alone: its last
token is of the kind `k`, if no token of that kind and no token that ends before looks at what
follows, and every other token goes on into it. -/
theorem isCut_append_iff {S : List α → Prop} (hS : ∀ v w, w ≠ [] → S (v ++ w) → S w)
    (hk : ∀ before v, (L.next before v).1 = k → (L.next before v).2 = 1)
    (hstay : ∀ before v, v ≠ [] → S v → (L.next before v).1 = k ∨ (L.next before v).2 < v.length →
        L.next before (v ++ rest) = L.next before v)
    (hopen : ∀ before v, v ≠ [] → S v → (L.next before v).1 ≠ k →
      v.length ≤ (L.next before v).2 → v.length < (L.next before (v ++ rest)).2) (hrest : rest ≠ [])
    (before : List α) {u : List α} (hu : u ≠ [] → S u) :
    L.IsCut before (u ++ rest) u.length ↔ ∀ token ∈ (L.tokens before u).getLast?, token.1 = k := by
  induction before, u using L.tokens_induction with
  | nil before => simp [isCut_zero]
  | cons before c u ih =>
    have hpos := L.next_pos before (c :: u)
    have hSu := hu (cons_ne_nil _ _)
    obtain ⟨k', n, hnext⟩ : ∃ k' n, L.next before (c :: u) = (k', n) := ⟨_, _, rfl⟩
    have hstay := hstay before (c :: u) (cons_ne_nil _ _) hSu
    have hopen := hopen before (c :: u) (cons_ne_nil _ _) hSu
    rw [hnext] at hpos ih hstay hopen
    rw [tokens_cons, hnext]
    rcases lt_or_ge n (c :: u).length with hlt | hge
    · -- the first token ends before, and it is read the same
      have hlen : ((c :: u).take n).length = n := by
        rw [length_take]
        omega
      have hw : (c :: u).take n ≠ [] := ne_nil_of_length_pos (by omega)
      have hdrop : (c :: u).drop n ≠ [] := by
        rw [ne_eq, drop_eq_nil_iff]
        omega
      have hsplit : (c :: u) ++ rest = (c :: u).take n ++ ((c :: u).drop n ++ rest) := by
        rw [← append_assoc, take_append_drop]
      have hfirst : L.next before ((c :: u).take n ++ ((c :: u).drop n ++ rest))
          = (k', ((c :: u).take n).length) := by
        rw [← hsplit, hstay (.inr hlt), hlen]
      have hS' : S ((c :: u).drop n) := hS ((c :: u).take n) _ hdrop (by rwa [take_append_drop])
      have hcut := L.isCut_iff_of_next hw hfirst
        (show _ ≤ (c :: u).length by rw [hlen]; exact hlt.le)
      rw [hlen, ← length_drop] at hcut
      obtain ⟨d, v, hv⟩ := exists_cons_of_ne_nil hdrop
      rw [hsplit, hcut, ih fun _ => hS', hv, tokens_cons, getLast?_cons_cons]
    · rw [drop_of_length_le hge]
      by_cases hkind : k' = k
      · have hone : n = 1 := by simpa [hnext, hkind] using hk before (c :: u)
        have hlen : (c :: u).length = n := le_antisymm hge (by rw [hone]; simp)
        have hfirst : L.next before ((c :: u) ++ rest) = (k', (c :: u).length) := by
          rw [hstay (.inl hkind), hlen]
        rw [L.isCut_iff_of_next (cons_ne_nil _ _) hfirst le_rfl, Nat.sub_self]
        exact iff_of_true (L.isCut_zero _ _) (by simpa using hkind)
      · have hrestpos := length_pos_iff.mpr hrest
        have hnot := L.not_isCut_of_lt (by simp) (hopen hkind hge) (by rw [length_append]; omega)
        exact iff_of_false hnot fun h => hkind (h _ rfl)

/-- The characters of a text, each with the kind of its token. -/
def marks (before text : List α) : List (α × κ) :=
  (L.tokens before text).flatMap fun token => token.2.map (·, token.1)

@[simp] lemma marks_nil (before : List α) : L.marks before [] = [] := rfl

lemma marks_cons (before : List α) (c : α) (rest : List α) : L.marks before (c :: rest)
      = ((c :: rest).take (L.next before (c :: rest)).2).map (·, (L.next before (c :: rest)).1)
        ++ L.marks (((c :: rest).take (L.next before (c :: rest)).2).reverse ++ before)
          ((c :: rest).drop (L.next before (c :: rest)).2) := by
  rw [marks, tokens_cons]
  rfl

@[simp] lemma marks_map_fst (before text : List α) : (L.marks before text).map fst = text := by
  induction before, text using L.tokens_induction with
  | nil before => rfl
  | cons before c rest ih =>
    rw [marks_cons, map_append, ih]
    simp [Function.comp_def]

@[simp] lemma marks_length (before text : List α) : (L.marks before text).length = text.length := by
  conv_rhs => rw [← L.marks_map_fst before text, length_map]

/-! ### Starts of texts -/

/-- In front of `rest`, the characters of `w` are read as `m`, and `rest` is read on its own. -/
def Reads (before w : List α) (m : List (α × κ)) (rest : List α) : Prop :=
  L.marks before (w ++ rest) = m ++ L.marks (w.reverse ++ before) rest

variable {L}

lemma Reads.nil (before rest : List α) : L.Reads before [] [] rest := rfl

lemma Reads.append {w' : List α} {m m' : List (α × κ)} (h : L.Reads before w m (w' ++ rest))
    (h' : L.Reads (w.reverse ++ before) w' m' rest) : L.Reads before (w ++ w') (m ++ m') rest := by
  unfold Reads at *
  rw [append_assoc, h, h', append_assoc, reverse_append, append_assoc]

/-- One token. -/
lemma Reads.of_next (hw : w ≠ []) (h : L.next before (w ++ rest) = (k, w.length)) :
    L.Reads before w (w.map (·, k)) rest := by
  rw [Reads, marks, L.tokens_of_next hw h]
  rfl

/-- A token that ends with the text or before. -/
lemma Reads.of_take {n : ℕ} (htext : text ≠ []) (h : L.next before text = (k, n)) :
    L.Reads before (text.take n) ((text.take n).map (·, k)) (text.drop n) := by
  obtain ⟨c, rest, rfl⟩ := exists_cons_of_ne_nil htext
  rw [Reads, take_append_drop, marks_cons, h]

/-- Characters that are tokens of one kind. -/
lemma Reads.of_forall
    (h : ∀ u c v, w = u ++ c :: v → L.next (u.reverse ++ before) (c :: (v ++ rest)) = (k, 1)) :
    L.Reads before w (w.map (·, k)) rest := by
  induction w generalizing before with
  | nil => exact .nil before rest
  | cons c w ih =>
    have hfirst : L.Reads before [c] [(c, k)] (w ++ rest) :=
      .of_next (cons_ne_nil _ _) (h [] c w rfl)
    refine hfirst.append (ih fun u d v hw => ?_)
    have := h (c :: u) d v (by rw [hw, cons_append])
    simpa using this

/-- A lexer reads a text as another does if it reads each token of the other. -/
theorem marks_eq_flatMap {κ' : Type*} {L' : Lexer α κ'} {f : κ' → List α → List (α × κ)}
    (h : ∀ before text, text ≠ [] → L.Reads before (text.take (L'.next before text).2)
        (f (L'.next before text).1 (text.take (L'.next before text).2))
        (text.drop (L'.next before text).2))
    (before text : List α) :
    L.marks before text = (L'.tokens before text).flatMap fun token => f token.1 token.2 := by
  induction before, text using L'.tokens_induction with
  | nil before => rfl
  | cons before c rest ih =>
    have hread := h before (c :: rest) (cons_ne_nil _ _)
    rw [Reads, take_append_drop] at hread
    rw [hread, ih, L'.tokens_cons, flatMap_cons]

end Lexer

end Lexing
