import SpaceQuery.Lib.Utf8

/-!
Logs of edits that can be undone.

A log is kept with the state in front of its first edit, the anchor, and the number of its edits
that are done, the index. The edits behind the index are those that were undone.
-/

namespace EditLog

open List

/-- The edits `D` of states `T`: how an edit is done and undone, and where it fits. -/
structure Edits (T D : Type*) where
  apply : T → D → T
  revert : T → D → T
  Fits : T → D → Prop
  revert_apply : ∀ {t d}, Fits t d → revert (apply t d) d = t

namespace Edits

variable {T D : Type*} (E : Edits T D)

/-- The state behind some edits. -/
def replay (t : T) (log : List D) : T := log.foldl E.apply t

/-- Each edit of the log fits the state behind the edits in front of it. -/
def Consistent : T → List D → Prop
  | _, [] => True
  | t, d :: log => E.Fits t d ∧ Consistent (E.apply t d) log

variable {E} {t : T} {d : D} {log log' : List D}

@[simp] lemma replay_nil : E.replay t [] = t := rfl

@[simp] lemma replay_cons : E.replay t (d :: log) = E.replay (E.apply t d) log := rfl

lemma replay_concat : E.replay t (log ++ [d]) = E.apply (E.replay t log) d := by
  simp [replay]

lemma consistent_append :
    E.Consistent t (log ++ log') ↔ E.Consistent t log ∧ E.Consistent (E.replay t log) log' := by
  induction log generalizing t with
  | nil => simp [Consistent]
  | cons d log ih => rw [cons_append, Consistent, Consistent, ih, replay_cons, and_assoc]

variable (E) in
/-- The log with its anchor and its index accounts for the current state. -/
structure Holds (anchor : T) (log : List D) (index : ℕ) (current : T) : Prop where
  consistent : E.Consistent anchor log
  le : index ≤ log.length
  replay_eq : E.replay anchor (log.take index) = current

namespace Holds

variable {anchor current : T} {index : ℕ}

/-- The edits behind the index are dropped. -/
lemma truncate (h : E.Holds anchor log index current) :
    E.Holds anchor (log.take index) index current := by
  have hsplit := h.consistent
  rw [← take_append_drop index log, consistent_append] at hsplit
  refine ⟨hsplit.1, ?_, ?_⟩
  · rw [length_take, min_eq_left h.le]
  · rw [take_take, min_self]
    exact h.replay_eq

/-- An edit that fits is done and put at the end. -/
lemma append (h : E.Holds anchor log log.length current) (hd : E.Fits current d) :
    E.Holds anchor (log ++ [d]) (log ++ [d]).length (E.apply current d) := by
  obtain ⟨hlog, -, hreplay⟩ := h
  rw [take_length] at hreplay
  refine ⟨consistent_append.2 ⟨hlog, ?_, trivial⟩, le_rfl, ?_⟩
  · rw [hreplay]
    exact hd
  · rw [take_length, replay_concat, hreplay]

/-- The edit behind the index fits the current state, and can be done again. -/
lemma forward (h : E.Holds anchor log index current) (hd : log[index]? = some d) :
    E.Fits current d ∧ E.Holds anchor log (index + 1) (E.apply current d) := by
  obtain ⟨hlt, hget⟩ := List.getElem?_eq_some_iff.1 hd
  have htake : log.take (index + 1) = log.take index ++ [d] := by
    rw [take_add_one, hd]
    rfl
  have hfits : E.Fits current d := by
    have hsplit := h.consistent
    rw [← take_append_drop index log, consistent_append, h.replay_eq,
      drop_eq_getElem_cons hlt, hget] at hsplit
    exact hsplit.2.1
  exact ⟨hfits, h.consistent, hlt, by rw [htake, replay_concat, h.replay_eq]⟩

/-- The last edit that is done can be undone. -/
lemma back (h : E.Holds anchor log (index + 1) current) (hd : log[index]? = some d) :
    E.Fits (E.revert current d) d ∧ E.apply (E.revert current d) d = current ∧
      E.Holds anchor log index (E.revert current d) := by
  have hbefore : E.Holds anchor log index (E.replay anchor (log.take index)) :=
    ⟨h.consistent, (Nat.le_succ index).trans h.le, rfl⟩
  obtain ⟨hfits, hafter⟩ := hbefore.forward hd
  have hcur := hafter.replay_eq.symm.trans h.replay_eq
  rw [← hcur, E.revert_apply hfits]
  exact ⟨hfits, rfl, hbefore⟩

/-- The oldest edit is dropped, and the anchor is the state behind it. -/
lemma evict (h : E.Holds anchor (d :: log) (index + 1) current) :
    E.Fits anchor d ∧ E.Holds (E.apply anchor d) log index current :=
  ⟨h.consistent.1, h.consistent.2, Nat.le_of_succ_le_succ h.le, h.replay_eq⟩

/-- With nothing done, the current state is the anchor. -/
lemma current_eq (h : E.Holds anchor log 0 current) : current = anchor := h.replay_eq.symm

end Holds

end Edits

section Groups

variable {G : Type*} {ids : List G} {g : G}

/-- The index does not divide a group. -/
def BetweenGroups (ids : List G) (index : ℕ) : Prop :=
  index = 0 ∨ ids[index]? ≠ ids[index - 1]?

lemma betweenGroups_length : BetweenGroups ids ids.length := by
  cases hlen : ids.length with
  | zero => exact .inl rfl
  | succ n =>
    refine .inr ?_
    rw [getElem?_eq_none hlen.le, getElem?_eq_getElem (by omega)]
    exact nofun

variable [DecidableEq G]

/-- The start of the group `g` that ends at an index. -/
def groupStart (ids : List G) (g : G) : ℕ → ℕ
  | 0 => 0
  | index + 1 => if ids[index]? = some g then groupStart ids g index else index + 1

/-- The end of the group `g` that starts at an index. -/
def groupStop (ids : List G) (g : G) (index : ℕ) : ℕ :=
  index + ((ids.drop index).takeWhile (· = g)).length

lemma groupStart_le (index : ℕ) : groupStart ids g index ≤ index := by
  fun_induction groupStart ids g index <;> omega

variable {index : ℕ}

lemma groupStop_of_ne (h : ids[index]? ≠ some g) : groupStop ids g index = index := by
  rw [groupStop]
  cases hdrop : ids.drop index with
  | nil => rfl
  | cons a rest =>
    have hget : ids[index]? = some a := by
      rw [← add_zero index, ← getElem?_drop, hdrop]
      rfl
    have hne : a ≠ g := fun heq => h (heq ▸ hget)
    simp [hne]

lemma groupStop_of_eq (h : ids[index]? = some g) :
    groupStop ids g index = groupStop ids g (index + 1) := by
  obtain ⟨hlt, hget⟩ := List.getElem?_eq_some_iff.1 h
  rw [groupStop, groupStop, drop_eq_getElem_cons hlt, hget]
  simp only [takeWhile_cons, decide_true, if_true, length_cons]
  omega

/-- From the start of the group that ends at an index, the group goes on to the index. -/
lemma groupStop_groupStart (hne : ids[index]? ≠ some g) :
    groupStop ids g (groupStart ids g index) = index := by
  -- from everywhere in the group its end is the same
  have hreach : ∀ n, groupStop ids g (groupStart ids g n) = groupStop ids g n := by
    intro n
    fun_induction groupStart ids g n with
    | case1 => rfl
    | case2 n h ih => rw [ih, groupStop_of_eq h]
    | case3 => rfl
  rw [hreach, groupStop_of_ne hne]

/-- Undoing a group leads between two groups. -/
lemma betweenGroups_groupStart (h : ids[index]? = some g) :
    BetweenGroups ids (groupStart ids g (index + 1)) ∧
      ids[groupStart ids g (index + 1)]? = some g := by
  rw [groupStart, if_pos h]
  induction index with
  | zero => exact ⟨.inl rfl, h⟩
  | succ index ih =>
    rw [groupStart]
    split_ifs with hprev
    · exact ih hprev
    · refine ⟨.inr ?_, h⟩
      rw [h]
      exact fun heq => hprev heq.symm

/-- Redoing a group leads between two groups. -/
lemma betweenGroups_groupStop (h : ids[index]? = some g) :
    BetweenGroups ids (groupStop ids g index) := by
  rw [groupStop_of_eq h]
  -- the group goes on as long as there are ids left
  induction hn : ids.length - index generalizing index with
  | zero =>
    have hlt := (List.getElem?_eq_some_iff.1 h).1
    omega
  | succ n ih =>
    by_cases hnext : ids[index + 1]? = some g
    · rw [groupStop_of_eq hnext]
      exact ih hnext (by omega)
    · refine .inr ?_
      rw [groupStop_of_ne hnext, Nat.add_sub_cancel, h]
      exact hnext

end Groups

end EditLog

/-! ### Splices -/

namespace Utf8

/-- The replacement of a part of a text by another one. -/
structure Splice where
  start : ℕ
  deleted : List UInt8
  inserted : List UInt8

namespace Splice

variable {t : List UInt8} {d : Splice}

/-- The text with the replacement done. -/
def apply (t : List UInt8) (d : Splice) : List UInt8 :=
  t.take d.start ++ d.inserted ++ t.drop (d.start + d.deleted.length)

/-- The replacement the other way. -/
def inverse (d : Splice) : Splice := ⟨d.start, d.inserted, d.deleted⟩

/-- The part to be replaced stands in the text, and every part is a text. -/
def Fits (t : List UInt8) (d : Splice) : Prop :=
  ∃ front back, t = front ++ d.deleted ++ back ∧ front.length = d.start ∧
    Valid front ∧ Valid back ∧ Valid d.deleted ∧ Valid d.inserted

lemma apply_append {front back : List UInt8} (hlen : front.length = d.start) :
    apply (front ++ d.deleted ++ back) d = front ++ d.inserted ++ back := by
  have hdrop : (front ++ d.deleted ++ back).drop (front.length + d.deleted.length) = back :=
    List.drop_left' List.length_append
  rw [apply, ← hlen, hdrop, List.append_assoc front, List.take_left]

/-- A splice is undone by its inverse, which fits in turn. -/
lemma Fits.inverse (h : Fits t d) :
    Fits (apply t d) d.inverse ∧ apply (apply t d) d.inverse = t := by
  obtain ⟨front, back, rfl, hlen, hfront, hback, hdel, hins⟩ := h
  rw [apply_append hlen]
  exact ⟨⟨front, back, rfl, hlen, hfront, hback, hins, hdel⟩, apply_append (d := d.inverse) hlen⟩

/-- A splice replaces a part between two boundaries. -/
lemma Fits.isCharBoundary (h : Fits t d) : isCharBoundary t d.start ∧
    isCharBoundary t (d.start + d.deleted.length) := by
  obtain ⟨front, back, rfl, hlen, -, hback, hdel, -⟩ := h
  rw [← hlen, ← List.length_append]
  refine ⟨?_, hback.isCharBoundary_append _⟩
  rw [List.append_assoc]
  exact (hdel.append hback).isCharBoundary_append _

open Utf8

/-- The part between two boundaries may be replaced. -/
lemma fits_of_isCharBoundary (ht : Valid t) {start stop : ℕ} (hle : start ≤ stop)
    (hstart : isCharBoundary t start) (hstop : isCharBoundary t stop)
    {inserted : List UInt8} (hins : Valid inserted) :
    Fits t ⟨start, (t.take stop).drop start, inserted⟩ := by
  refine ⟨t.take start, t.drop stop, ?_, ?_, (ht.split hstart).1, (ht.split hstop).2,
    Str.valid_slice ht hle hstart hstop, hins⟩
  · have htake : (t.take stop).take start = t.take start := by
      rw [List.take_take, min_eq_left hle]
    rw [← htake, List.take_append_drop, List.take_append_drop]
  · rw [List.length_take, min_eq_left (le_length_of_isCharBoundary hstart)]

/-- The empty splice fits at a boundary and leaves the text as it is. -/
lemma fits_nil (ht : Valid t) {position : ℕ} (h : isCharBoundary t position) :
    Fits t ⟨position, [], []⟩ ∧ apply t ⟨position, [], []⟩ = t := by
  have hnil : (t.take position).drop position = [] := List.drop_eq_nil_of_le (by simp)
  have hfits := fits_of_isCharBoundary ht le_rfl h h valid_nil
  rw [hnil] at hfits
  exact ⟨hfits, by simp [apply]⟩

end Splice

/-- The splices of UTF-8 texts as edits. -/
def splices : EditLog.Edits (List UInt8) Splice where
  apply := Splice.apply
  revert t d := Splice.apply t d.inverse
  Fits := Splice.Fits
  revert_apply h := h.inverse.2

/-! ### Lists of splices -/

namespace Splice

variable {t : List UInt8} {d : Splice} {ds : List Splice}

/-- The splice puts something in or takes something out. -/
def Changes (d : Splice) : Prop := d.deleted ≠ [] ∨ d.inserted ≠ []

instance (d : Splice) : Decidable d.Changes := inferInstanceAs (Decidable (_ ∨ _))

lemma apply_of_not_changes (h : ¬ d.Changes) : apply t d = t := by
  rw [Changes, not_or, not_not, not_not] at h
  simp [apply, h.1, h.2]

/-- The splices that change nothing may be left out. -/
lemma consistent_filter (h : splices.Consistent t ds) : splices.Consistent t (ds.filter Changes) ∧
      splices.replay t (ds.filter Changes) = splices.replay t ds := by
  induction ds generalizing t with
  | nil => exact ⟨trivial, rfl⟩
  | cons d ds ih =>
    obtain ⟨hfits, hds⟩ := h
    have ih' := ih hds
    by_cases hchanges : d.Changes
    · rw [List.filter_cons_of_pos (by simpa using hchanges)]
      exact ⟨⟨hfits, ih'.1⟩, ih'.2⟩
    · have hsame : splices.apply t d = t := apply_of_not_changes hchanges
      rw [hsame] at ih'
      rw [List.filter_cons_of_neg (by simpa using hchanges), EditLog.Edits.replay_cons, hsame]
      exact ih'

/-- A splice leaves the boundaries in front of it. -/
lemma Fits.isCharBoundary_apply (h : Fits t d) {position : ℕ} (hle : position ≤ d.start) :
    Utf8.isCharBoundary (apply t d) position = Utf8.isCharBoundary t position := by
  obtain rfl | hlt := hle.eq_or_lt
  · rw [h.isCharBoundary.1]
    exact h.inverse.1.isCharBoundary.1
  · obtain ⟨front, back, rfl, hlen, -⟩ := h
    rw [← hlen] at hlt
    rw [apply_append hlen]
    simp only [Utf8.isCharBoundary, List.append_assoc, List.getElem?_append_left hlt,
      List.getElem?_eq_getElem hlt]

section

variable (h : splices.Consistent t ds)

include h

/-- So do splices behind a position. -/
lemma isCharBoundary_replay {position : ℕ} (hle : ∀ d ∈ ds, position ≤ d.start) :
    isCharBoundary (splices.replay t ds) position = isCharBoundary t position := by
  induction ds generalizing t with
  | nil => rfl
  | cons d ds ih =>
    rw [List.forall_mem_cons] at hle
    rw [EditLog.Edits.replay_cons, ih h.2 hle.2]
    exact h.1.isCharBoundary_apply hle.1

/-- The first of the starts is a boundary of the text in front of all splices. -/
lemma isCharBoundary_of_forall_le (hd : d ∈ ds)
    (hle : ∀ d' ∈ ds, d.start ≤ d'.start) : isCharBoundary t d.start := by
  induction ds generalizing t with
  | nil => cases hd
  | cons d' ds ih =>
    rw [List.forall_mem_cons] at hle
    obtain rfl | hd := List.mem_cons.1 hd
    · exact h.1.isCharBoundary.1
    · rw [← h.1.isCharBoundary_apply hle.1]
      exact ih h.2 hd hle.2

/-- What splices between two positions leave alone: the text in front of the first position, and
behind the second one and all that they delete. -/
theorem replay_window {low high stop : ℕ}
    (hlow : ∀ d ∈ ds, low ≤ d.start) (hhigh : ∀ d ∈ ds, d.start ≤ high) (hle : low ≤ high)
    (hstop : stop = t.length ∨
      stop ≤ t.length ∧ high + (ds.map fun d => d.deleted.length).sum ≤ stop) :
    ∃ middle, splices.replay t ds = t.take low ++ middle ++ t.drop stop := by
  induction ds generalizing t stop with
  | nil =>
    obtain rfl | ⟨-, hstop⟩ := hstop
    · exact ⟨t.drop low, by simp⟩
    · refine ⟨(t.take stop).drop low, ?_⟩
      have hfront : (t.take stop).take low = t.take low := by
        rw [List.take_take, min_eq_left (hle.trans hstop)]
      rw [← hfront, List.take_append_drop, List.take_append_drop]
      rfl
  | cons d ds ih =>
    rw [List.forall_mem_cons] at hlow hhigh
    rw [List.map_cons, List.sum_cons] at hstop
    obtain ⟨⟨front, back, rfl, hfront, hrest⟩, hds⟩ := h
    have happly : splices.apply (front ++ d.deleted ++ back) d = front ++ d.inserted ++ back :=
      apply_append hfront
    rw [happly] at hds
    -- the place of the unchanged end moves with the splice
    rw [List.length_append, List.length_append] at hstop
    obtain ⟨n, rfl⟩ : ∃ n, stop = front.length + d.deleted.length + n :=
      ⟨stop - (front.length + d.deleted.length), by omega⟩
    have hstop' : front.length + d.inserted.length + n = (front ++ d.inserted ++ back).length ∨
        front.length + d.inserted.length + n ≤ (front ++ d.inserted ++ back).length ∧
          high + (ds.map fun d => d.deleted.length).sum ≤ front.length + d.inserted.length + n := by
      rw [List.length_append, List.length_append]
      omega
    obtain ⟨middle, hmiddle⟩ := ih hds hlow.2 hhigh.2 hstop'
    refine ⟨middle, ?_⟩
    rw [EditLog.Edits.replay_cons, happly, hmiddle]
    have htake : ∀ part : List UInt8, (front ++ part ++ back).take low = front.take low := by
      intro part
      rw [List.append_assoc, List.take_append_of_le_length (by omega)]
    have hdrop : ∀ part : List UInt8,
        (front ++ part ++ back).drop (front.length + part.length + n) = back.drop n := by
      intro part
      rw [← List.length_append, List.drop_append, List.drop_eq_nil_of_le (Nat.le_add_right _ _),
        Nat.add_sub_cancel_left, List.nil_append]
    rw [htake, htake, hdrop, hdrop]

end

end Splice

end Utf8
