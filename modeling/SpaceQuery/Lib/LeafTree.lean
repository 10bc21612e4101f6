import Mathlib.Data.Nat.Fib.Basic
import Mathlib.Data.Nat.Log
import Mathlib.Tactic

/-!
Binary trees with their values at the leaves, balanced by height: `rebalance`, `join` and
`ofLeaves` keep them `Balanced`.
-/

/-- A binary tree with values at its leaves. -/
inductive LeafTree (α : Type*)
  | leaf (a : α)
  | node (left right : LeafTree α)

namespace LeafTree

open List

variable {α : Type*}

def height : LeafTree α → ℕ
  | leaf _ => 1
  | node l r => max l.height r.height + 1

def leaves : LeafTree α → List α
  | leaf a => [a]
  | node l r => l.leaves ++ r.leaves

/-- The heights of siblings differ by at most one. -/
def Balanced : LeafTree α → Prop
  | leaf _ => True
  | node l r => (l.height ≤ r.height + 1 ∧ r.height ≤ l.height + 1) ∧ l.Balanced ∧ r.Balanced

@[simp] lemma height_leaf (a : α) : (leaf a).height = 1 := rfl

variable (l r : LeafTree α)

@[simp] lemma height_node : (node l r).height = max l.height r.height + 1 := rfl

@[simp] lemma leaves_leaf (a : α) : (leaf a).leaves = [a] := rfl

@[simp] lemma leaves_node : (node l r).leaves = l.leaves ++ r.leaves := rfl

@[simp] lemma balanced_leaf (a : α) : (leaf a).Balanced := trivial

@[simp] lemma balanced_node : (node l r).Balanced ↔
      (l.height ≤ r.height + 1 ∧ r.height ≤ l.height + 1) ∧ l.Balanced ∧ r.Balanced := Iff.rfl

lemma height_pos (t : LeafTree α) : 0 < t.height := by
  cases t with
  | leaf => simp
  | node => simp

/-- A balanced tree has as many leaves as a Fibonacci tree of its height. -/
lemma Balanced.fib_height_le {t : LeafTree α} (h : t.Balanced) :
    Nat.fib (t.height + 1) ≤ t.leaves.length := by
  induction t with
  | leaf a => simp
  | node l r ihl ihr =>
    obtain ⟨⟨hlr, hrl⟩, hl, hr⟩ := h
    have hl' := ihl hl
    have hr' := ihr hr
    rw [height_node, leaves_node, length_append, Nat.fib_add_two]
    obtain hle | hle := le_total l.height r.height
    · have := Nat.fib_mono hrl
      rw [max_eq_right hle]
      omega
    · have := Nat.fib_mono hlr
      rw [max_eq_left hle]
      omega

/-! ### Rotations -/

/-- A node over a high left and a low right tree: the left tree is turned up, or its
right child is. -/
def rotateRight : LeafTree α :=
  match l with
  | leaf _ => node l r
  | node ll lr =>
    if lr.height ≤ ll.height then node ll (node lr r)
    else match lr with
      | leaf _ => node l r
      | node ml mr => node (node ll ml) (node mr r)

/-- A node over a low left and a high right tree. -/
def rotateLeft : LeafTree α :=
  match r with
  | leaf _ => node l r
  | node rl rr =>
    if rl.height ≤ rr.height then node (node l rl) rr
    else match rl with
      | leaf _ => node l r
      | node ml mr => node (node l ml) (node mr rr)

/-- A node over two trees, rotated when one is higher by more than one. -/
def rebalance : LeafTree α :=
  if r.height + 1 < l.height then rotateRight l r
  else if l.height + 1 < r.height then rotateLeft l r
  else node l r

lemma leaves_rotateRight : (rotateRight l r).leaves = l.leaves ++ r.leaves := by
  fun_cases rotateRight l r <;> simp

lemma leaves_rotateLeft : (rotateLeft l r).leaves = l.leaves ++ r.leaves := by
  fun_cases rotateLeft l r <;> simp

lemma leaves_rebalance : (rebalance l r).leaves = l.leaves ++ r.leaves := by
  rw [rebalance]
  split_ifs <;> simp [leaves_rotateRight, leaves_rotateLeft]

variable {l r : LeafTree α}

lemma rotateRight_spec (hl : l.Balanced) (hr : r.Balanced) (h : l.height = r.height + 2) :
    (rotateRight l r).Balanced ∧ (rotateRight l r).height ≤ l.height + 1 ∧
      l.height ≤ (rotateRight l r).height := by
  have hpos := r.height_pos
  fun_cases rotateRight l r <;> simp only [height_node, height_leaf, balanced_node] at * <;> grind

lemma rotateLeft_spec (hl : l.Balanced) (hr : r.Balanced) (h : r.height = l.height + 2) :
    (rotateLeft l r).Balanced ∧ (rotateLeft l r).height ≤ r.height + 1 ∧
      r.height ≤ (rotateLeft l r).height := by
  have hpos := l.height_pos
  fun_cases rotateLeft l r <;> simp only [height_node, height_leaf, balanced_node] at * <;> grind

/-- A node over trees whose heights differ by at most two is balanced, and only a rotated
one may be as low as the higher of the trees. -/
lemma rebalance_spec (hl : l.Balanced) (hr : r.Balanced) (hlr : l.height ≤ r.height + 2)
    (hrl : r.height ≤ l.height + 2) :
    (rebalance l r).Balanced ∧ (rebalance l r).height ≤ max l.height r.height + 1 ∧
      max l.height r.height ≤ (rebalance l r).height ∧
      (l.height ≤ r.height + 1 → r.height ≤ l.height + 1 →
        (rebalance l r).height = max l.height r.height + 1) := by
  rw [rebalance]
  split_ifs with hleft hright
  · obtain ⟨hbal, hle, hge⟩ := rotateRight_spec hl hr (by omega)
    exact ⟨hbal, by omega, by omega, by omega⟩
  · obtain ⟨hbal, hle, hge⟩ := rotateLeft_spec hl hr (by omega)
    exact ⟨hbal, by omega, by omega, by omega⟩
  · rw [height_node]
    exact ⟨⟨by omega, hl, hr⟩, le_rfl, by omega, fun _ _ => rfl⟩

/-! ### Concatenation -/

/-- The concatenation of two trees: the lower one is joined to a child of the higher
one. -/
def join (l r : LeafTree α) : LeafTree α :=
  if r.height + 1 < l.height then
    match l with
    | leaf _ => node l r
    | node ll lr => rebalance ll (join lr r)
  else if l.height + 1 < r.height then
    match r with
    | leaf _ => node l r
    | node rl rr => rebalance (join l rl) rr
  else node l r
termination_by sizeOf l + sizeOf r

lemma leaves_join (l r : LeafTree α) : (join l r).leaves = l.leaves ++ r.leaves := by
  fun_induction join l r with
  | case1 | case3 | case5 => simp
  | case2 r ll lr hlt ih | case4 l rl rr hle hlt ih => simp [leaves_rebalance, ih]

/-- The concatenation of balanced trees is balanced, and at most one higher than the
higher tree. -/
lemma join_spec (hl : l.Balanced) (hr : r.Balanced) :
    (join l r).Balanced ∧ (join l r).height ≤ max l.height r.height + 1 ∧
      max l.height r.height ≤ (join l r).height := by
  fun_induction join l r with
  | case1 r a hlt => simp at hlt
  | case3 l _ a hlt => simp at hlt
  | case5 l r hle hge =>
    simp only [height_node, balanced_node]
    exact ⟨⟨by omega, hl, hr⟩, by omega⟩
  | case2 r ll lr hlt ih =>
    obtain ⟨hsib, hll, hlr⟩ := (balanced_node ll lr).1 hl
    obtain ⟨hjoin, hle, hge⟩ := ih hlr hr
    rw [height_node] at hlt ⊢
    obtain ⟨hbal, hle', hge', heq⟩ := rebalance_spec hll hjoin (by omega) (by omega)
    exact ⟨hbal, by omega, by omega⟩
  | case4 l rl rr hle hlt ih =>
    obtain ⟨hsib, hrl, hrr⟩ := (balanced_node rl rr).1 hr
    obtain ⟨hjoin, hle', hge⟩ := ih hl hrl
    rw [height_node] at hlt ⊢
    obtain ⟨hbal, hle', hge', heq⟩ := rebalance_spec hjoin hrr (by omega) (by omega)
    exact ⟨hbal, by omega, by omega⟩

/-! ### The tree over a list -/

/-- The tree over a list of leaves, built by halving. -/
def ofLeaves (leaves : List α) : Option (LeafTree α) :=
  match leaves with
  | [] => none
  | [a] => some (leaf a)
  | a :: b :: rest => do
      let middle := (a :: b :: rest).length / 2
      let l ← ofLeaves ((a :: b :: rest).take middle)
      let r ← ofLeaves ((a :: b :: rest).drop middle)
      return node l r
termination_by leaves.length
decreasing_by all_goals (simp; omega)

/-- The heights of the two halves differ by at most one. -/
lemma clog_half (n : ℕ) : Nat.clog 2 (n + 2) = Nat.clog 2 (n + 2 - (n + 2) / 2) + 1 ∧
      Nat.clog 2 ((n + 2) / 2) ≤ Nat.clog 2 (n + 2 - (n + 2) / 2) ∧
      Nat.clog 2 (n + 2 - (n + 2) / 2) ≤ Nat.clog 2 ((n + 2) / 2) + 1 := by
  have hceil : (n + 2 + 2 - 1) / 2 = n + 2 - (n + 2) / 2 := by omega
  refine ⟨?_, Nat.clog_mono_right 2 (by omega), ?_⟩
  · rw [Nat.clog_of_two_le one_lt_two (by omega), hceil]
  · rw [Nat.clog_le_iff_le_pow one_lt_two]
    have hpow := Nat.le_pow_clog one_lt_two ((n + 2) / 2)
    omega

/-- The tree over a list has the list as its leaves and is balanced: its height is
logarithmic. -/
lemma ofLeaves_spec (xs : List α) (hxs : xs ≠ []) :
    ∃ t, ofLeaves xs = some t ∧ t.leaves = xs ∧ t.Balanced ∧
      t.height = Nat.clog 2 xs.length + 1 := by
  fun_induction ofLeaves xs with
  | case1 => exact absurd rfl hxs
  | case2 a => exact ⟨leaf a, rfl, rfl, trivial, by simp⟩
  | case3 a b rest middle ihl ihr =>
    have hlen : (a :: b :: rest).length = rest.length + 2 := rfl
    have htake : ((a :: b :: rest).take middle).length = (rest.length + 2) / 2 := by
      rw [length_take]
      omega
    have hdrop : ((a :: b :: rest).drop middle).length
        = rest.length + 2 - (rest.length + 2) / 2 := by
      rw [length_drop]
      rfl
    obtain ⟨l, hl, hlleaves, hlbal, hlheight⟩ := ihl (by
      rw [← length_pos_iff]
      omega)
    obtain ⟨r, hr, hrleaves, hrbal, hrheight⟩ := ihr (by
      rw [← length_pos_iff]
      omega)
    obtain ⟨hclog, hle, hge⟩ := clog_half rest.length
    rw [htake] at hlheight
    rw [hdrop] at hrheight
    refine ⟨node l r, by rw [hl, hr]; rfl, ?_, ⟨by omega, hlbal, hrbal⟩, ?_⟩
    · rw [leaves_node, hlleaves, hrleaves, take_append_drop]
    · rw [height_node, hlen]
      omega

end LeafTree
