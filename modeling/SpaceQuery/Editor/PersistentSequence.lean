import SpaceQuery.Lib.LeafTree

/-!
The persistent sequence of `chunked_text.rs`: a tree of leaves that caches lengths, counts and
heights in its branches. An `Arc` is its content together with its address, and `Arc::ptr_eq`
compares both: an address has one content for as long as it is held.
-/

namespace SpaceQuery.Editor

/-! ### Shared values -/

/-- A shared value at its address. -/
structure Arc (α : Type) where
  address : ℕ
  val : α
  deriving DecidableEq

/-- A computation that allocates: the state is the next free address. -/
abbrev Alloc (α : Type) := StateM ℕ α

/-- `Arc::new`. -/
def Arc.new {α : Type} (val : α) : Alloc (Arc α) := fun next => (⟨next, val⟩, next + 1)

/-- `Arc::ptr_eq`. -/
def Arc.ptrEq {α : Type} [DecidableEq α] (a b : Arc α) : Bool := a = b

/-! ### Nodes -/

/-- What a tree asks of its leaves. -/
class SequenceLeaf (L : Type) where
  len : L → ℕ
  secondaryLen : L → ℕ
  secondaryCountBefore : L → ℕ → ℕ
  secondaryPosition : L → ℕ → Option ℕ
  splitAt : L → ℕ → Option L × Option L
  rechunkPair : L → L → Alloc (List L)

/-- A node with its measures. -/
inductive SequenceNode (L : Type)
  | leaf (leaf : L)
  | branch (left right : SequenceNode L) (len secondaryLen leafCount height : ℕ)

namespace SequenceNode

variable {L : Type} [SequenceLeaf L]

def len : SequenceNode L → ℕ
  | leaf l => SequenceLeaf.len l
  | branch _ _ len _ _ _ => len

def secondaryLen : SequenceNode L → ℕ
  | leaf l => SequenceLeaf.secondaryLen l
  | branch _ _ _ secondaryLen _ _ => secondaryLen

def leafCount : SequenceNode L → ℕ
  | leaf _ => 1
  | branch _ _ _ _ leafCount _ => leafCount

def height : SequenceNode L → ℕ
  | leaf _ => 1
  | branch _ _ _ _ _ height => height

variable (left right : SequenceNode L)

def makeBranch : SequenceNode L :=
  branch left right (left.len + right.len) (left.secondaryLen + right.secondaryLen)
    (left.leafCount + right.leafCount) (max left.height right.height + 1)

def buildBalancedNodes (leaves : List L) : Option (SequenceNode L) :=
  match leaves with
  | [] => none
  | [l] => some (leaf l)
  | l :: l' :: rest => do
      let middle := (l :: l' :: rest).length / 2
      let left ← buildBalancedNodes ((l :: l' :: rest).take middle)
      let right ← buildBalancedNodes ((l :: l' :: rest).drop middle)
      return makeBranch left right
termination_by leaves.length
decreasing_by all_goals (simp; omega)

/-- `balance_nodes` with a left node that is too high. -/
def balanceLeft : SequenceNode L :=
  match left with
  | leaf _ => makeBranch left right
  | branch leftLeft leftRight _ _ _ _ =>
    if leftRight.height ≤ leftLeft.height then
      makeBranch leftLeft (makeBranch leftRight right)
    else match leftRight with
      | leaf _ => makeBranch left right
      | branch middleLeft middleRight _ _ _ _ =>
        makeBranch (makeBranch leftLeft middleLeft) (makeBranch middleRight right)

/-- `balance_nodes` with a right node that is too high. -/
def balanceRight : SequenceNode L :=
  match right with
  | leaf _ => makeBranch left right
  | branch rightLeft rightRight _ _ _ _ =>
    if rightLeft.height ≤ rightRight.height then
      makeBranch (makeBranch left rightLeft) rightRight
    else match rightLeft with
      | leaf _ => makeBranch left right
      | branch middleLeft middleRight _ _ _ _ =>
        makeBranch (makeBranch left middleLeft) (makeBranch middleRight rightRight)

def balanceNodes : SequenceNode L :=
  if right.height + 1 < left.height then balanceLeft left right
  else if left.height + 1 < right.height then balanceRight left right
  else makeBranch left right

/-- `concat_raw` of two nodes. -/
def concatNodes (left right : SequenceNode L) : SequenceNode L :=
  if right.height + 1 < left.height then
    match left with
    | leaf _ => makeBranch left right
    | branch leftLeft leftRight _ _ _ _ => balanceNodes leftLeft (concatNodes leftRight right)
  else if left.height + 1 < right.height then
    match right with
    | leaf _ => makeBranch left right
    | branch rightLeft rightRight _ _ _ _ => balanceNodes (concatNodes left rightLeft) rightRight
  else makeBranch left right
termination_by sizeOf left + sizeOf right

def concatRaw : Option (SequenceNode L) → Option (SequenceNode L) → Option (SequenceNode L)
  | none, right => right
  | left, none => left
  | some left, some right => some (concatNodes left right)

def popFirst : SequenceNode L → Option (SequenceNode L) × L
  | leaf l => (none, l)
  | branch left right _ _ _ _ =>
    let (leftRest, first) := popFirst left
    (concatRaw leftRest (some right), first)

def popLast : SequenceNode L → Option (SequenceNode L) × L
  | leaf l => (none, l)
  | branch left right _ _ _ _ =>
    let (rightRest, last) := popLast right
    (concatRaw (some left) rightRest, last)

def concatNormalized : Option (SequenceNode L) → Option (SequenceNode L) →
    Alloc (Option (SequenceNode L))
  | none, right => return right
  | left, none => return left
  | some left, some right => do
      let (leftRest, leftLeaf) := popLast left
      let (rightRest, rightLeaf) := popFirst right
      let middle := buildBalancedNodes (← SequenceLeaf.rechunkPair leftLeaf rightLeaf)
      return concatRaw (concatRaw leftRest middle) rightRest

/-- `split_node` of a node. -/
def splitAt : SequenceNode L → ℕ → Option (SequenceNode L) × Option (SequenceNode L)
  | leaf l, position =>
    if position = 0 then (none, some (leaf l))
    else if SequenceLeaf.len l ≤ position then (some (leaf l), none)
    else
      let (left, right) := SequenceLeaf.splitAt l position
      (left.map leaf, right.map leaf)
  | branch left right len secondaryLen leafCount height, position =>
    if position = 0 then (none, some (branch left right len secondaryLen leafCount height))
    else if len ≤ position then (some (branch left right len secondaryLen leafCount height), none)
    else if position = left.len then (some left, some right)
    else if position < left.len then
      let (before, after) := splitAt left position
      (before, concatRaw after (some right))
    else
      let (before, after) := splitAt right (position - left.len)
      (concatRaw (some left) before, after)

def splitNode (node : Option (SequenceNode L)) (position : ℕ) :
    Option (SequenceNode L) × Option (SequenceNode L) :=
  match node with
  | none => (none, none)
  | some node => node.splitAt position

def locateNode : SequenceNode L → ℕ → Option (L × ℕ)
  | leaf l, position => some (l, min position (SequenceLeaf.len l))
  | branch left right _ _ _ _, position =>
    if position < left.len then locateNode left position
    else locateNode right (position - left.len)

/-- `visit_node_range`: the calls of the visitor, in order. -/
def visitNodeRange : SequenceNode L → ℕ → ℕ → ℕ → List (L × ℕ × ℕ)
  | leaf l, nodeStart, start, stop =>
    if nodeStart + SequenceLeaf.len l ≤ start ∨ stop ≤ nodeStart then []
    else
      let localStart := min (start - nodeStart) (SequenceLeaf.len l)
      let localEnd := min (stop - nodeStart) (SequenceLeaf.len l)
      if localStart < localEnd then [(l, localStart, localEnd)] else []
  | branch left right len _ _ _, nodeStart, start, stop =>
    if nodeStart + len ≤ start ∨ stop ≤ nodeStart then []
    else visitNodeRange left nodeStart start stop
      ++ visitNodeRange right (nodeStart + left.len) start stop

end SequenceNode

/-- A tree that shares its nodes with older versions. -/
structure PersistentSequence (L : Type) where
  root : Option (SequenceNode L)

namespace PersistentSequence

variable {L : Type} [SequenceLeaf L]

def fromLeaves (leaves : List L) : PersistentSequence L :=
  ⟨SequenceNode.buildBalancedNodes leaves⟩

def len (s : PersistentSequence L) : ℕ := s.root.elim 0 SequenceNode.len

variable (s : PersistentSequence L)

def locate (position : ℕ) : Option (L × ℕ) :=
  if s.len ≤ position then none else s.root.bind (·.locateNode position)

def replaceRange (start stop : ℕ) (replacement : PersistentSequence L) :
    Alloc (PersistentSequence L) := do
  let start := min start s.len
  let stop := max (min stop s.len) start
  let (left, tail) := SequenceNode.splitNode s.root start
  let (_, right) := SequenceNode.splitNode tail (stop - start)
  let front ← SequenceNode.concatNormalized left replacement.root
  return ⟨← SequenceNode.concatNormalized front right⟩

def visitRange (start stop : ℕ) : List (L × ℕ × ℕ) :=
  let start := min start s.len
  let stop := max (min stop s.len) start
  s.root.elim [] (·.visitNodeRange 0 start stop)

end PersistentSequence

/-! ### Accurate trees -/

namespace SequenceNode

variable {L : Type}

/-- The tree below a node, without the cached values. -/
def erase : SequenceNode L → LeafTree L
  | leaf l => .leaf l
  | branch left right _ _ _ _ => .node left.erase right.erase

@[simp] lemma erase_leaf (l : L) : (leaf l).erase = .leaf l := rfl

@[simp] lemma erase_branch (left right : SequenceNode L) (a b c d : ℕ) :
    (branch left right a b c d).erase = .node left.erase right.erase := rfl

/-- The leaves below a node, from the left. -/
def leaves (n : SequenceNode L) : List L := n.erase.leaves

/-- The leaves of a possibly empty tree. -/
def rootLeaves (root : Option (SequenceNode L)) : List L := root.elim [] leaves

@[simp] lemma leaves_leaf (l : L) : (leaf l).leaves = [l] := rfl

@[simp] lemma leaves_branch (left right : SequenceNode L) (a b c d : ℕ) :
    (branch left right a b c d).leaves = left.leaves ++ right.leaves := rfl

@[simp] lemma rootLeaves_none : rootLeaves (none : Option (SequenceNode L)) = [] := rfl

@[simp] lemma rootLeaves_some (n : SequenceNode L) : rootLeaves (some n) = n.leaves := rfl

variable [SequenceLeaf L]

/-- The cached values of every branch are those `make_branch` computes. -/
def Accurate : SequenceNode L → Prop
  | leaf _ => True
  | branch left right len secondaryLen leafCount height =>
    branch left right len secondaryLen leafCount height = makeBranch left right ∧
      left.Accurate ∧ right.Accurate

@[simp] lemma erase_makeBranch (left right : SequenceNode L) :
    (makeBranch left right).erase = .node left.erase right.erase := rfl

@[simp] lemma accurate_makeBranch (left right : SequenceNode L) :
    (makeBranch left right).Accurate ↔ left.Accurate ∧ right.Accurate := by
  simp [makeBranch, Accurate]

variable {n : SequenceNode L}

open LeafTree

open List hiding rotateLeft rotateRight

lemma Accurate.height_eq (h : n.Accurate) : n.height = n.erase.height := by
  induction n with
  | leaf l => rfl
  | branch left right a b c d ihl ihr =>
    obtain ⟨heq, hl, hr⟩ := h
    rw [heq, erase_makeBranch, height_node, ← ihl hl, ← ihr hr]
    rfl

variable {left right : SequenceNode L} {position : ℕ}

section

variable (hl : left.Accurate) (hr : right.Accurate)

include hl hr

lemma balanceLeft_spec : (balanceLeft left right).Accurate ∧
      (balanceLeft left right).erase = rotateRight left.erase right.erase := by
  cases left with
  | leaf l => simp [balanceLeft, rotateRight, hl, hr]
  | branch leftLeft leftRight a b c d =>
    have hll := hl.2.1
    have hlr := hl.2.2
    simp only [balanceLeft, erase_branch, rotateRight, hll.height_eq, hlr.height_eq]
    split_ifs with hge
    · simp [hll, hlr, hr]
    · cases leftRight with
      | leaf l => simp [hl, hr]
      | branch middleLeft middleRight => simp [hll, hlr.2.1, hlr.2.2, hr]

lemma balanceRight_spec : (balanceRight left right).Accurate ∧
      (balanceRight left right).erase = rotateLeft left.erase right.erase := by
  cases right with
  | leaf l => simp [balanceRight, rotateLeft, hl, hr]
  | branch rightLeft rightRight a b c d =>
    have hrl := hr.2.1
    have hrr := hr.2.2
    simp only [balanceRight, erase_branch, rotateLeft, hrl.height_eq, hrr.height_eq]
    split_ifs with hge
    · simp [hrl, hrr, hl]
    · cases rightLeft with
      | leaf l => simp [hl, hr]
      | branch middleLeft middleRight => simp [hrr, hrl.2.1, hrl.2.2, hl]

/-- On accurate trees `balance_nodes` compares the true heights. -/
lemma balanceNodes_spec : (balanceNodes left right).Accurate ∧
      (balanceNodes left right).erase = rebalance left.erase right.erase := by
  rw [balanceNodes, rebalance, hl.height_eq, hr.height_eq]
  split_ifs
  · exact balanceLeft_spec hl hr
  · exact balanceRight_spec hl hr
  · simp [hl, hr]

lemma concatNodes_spec : (concatNodes left right).Accurate ∧
      (concatNodes left right).erase = join left.erase right.erase := by
  have hlh := hl.height_eq
  have hrh := hr.height_eq
  fun_induction concatNodes left right with
  | case1 right l hlt =>
    rw [join.eq_def, ← hlh, ← hrh, if_pos hlt]
    simp [hl, hr]
  | case2 right leftLeft leftRight a b c d hlt ih =>
    obtain ⟨hacc, herase⟩ := ih hl.2.2 hr hl.2.2.height_eq hrh
    rw [join.eq_def, ← hlh, ← hrh, if_pos hlt]
    simp only [erase_branch, ← herase]
    exact balanceNodes_spec hl.2.1 hacc
  | case3 left l hge hlt =>
    rw [join.eq_def, ← hlh, ← hrh, if_neg hge]
    simp [hl, hr]
  | case4 left rightLeft rightRight a b c d hge hlt ih =>
    obtain ⟨hacc, herase⟩ := ih hl hr.2.1 hlh hr.2.1.height_eq
    rw [join.eq_def, ← hlh, ← hrh, if_neg hge, if_pos hlt]
    simp only [erase_branch, ← herase]
    exact balanceNodes_spec hacc hr.2.2
  | case5 left right hge hle =>
    rw [join.eq_def, ← hlh, ← hrh, if_neg hge, if_neg hle]
    simp [hl, hr]

end

/-! ### Trees as lists of leaves -/

/-- The sum of the lengths of leaves. -/
def lenOf (leaves : List L) : ℕ := (leaves.map SequenceLeaf.len).sum

/-- The cached values of a possibly empty tree are accurate, and it is balanced. -/
def WellFormed (root : Option (SequenceNode L)) : Prop :=
  ∀ n ∈ root, n.Accurate ∧ n.erase.Balanced

@[simp] lemma lenOf_nil : lenOf ([] : List L) = 0 := rfl

@[simp] lemma lenOf_cons (l : L) (ls : List L) :
    lenOf (l :: ls) = SequenceLeaf.len l + lenOf ls := rfl

@[simp] lemma lenOf_append (xs ys : List L) : lenOf (xs ++ ys) = lenOf xs + lenOf ys := by
  simp [lenOf]

@[simp] lemma wellFormed_none : WellFormed (none : Option (SequenceNode L)) := by
  simp [WellFormed]

@[simp] lemma wellFormed_some (n : SequenceNode L) :
    WellFormed (some n) ↔ n.Accurate ∧ n.erase.Balanced := by
  simp [WellFormed]

lemma Accurate.len_eq (h : n.Accurate) : n.len = lenOf n.leaves := by
  induction n with
  | leaf l => simp [len]
  | branch left right a b c d ihl ihr =>
    obtain ⟨heq, hl, hr⟩ := h
    rw [leaves_branch, lenOf_append, ← ihl hl, ← ihr hr, heq]
    rfl

/-- The children of a well-formed tree are well formed. -/
lemma WellFormed.children {a b c d : ℕ} (h : WellFormed (some (branch left right a b c d))) :
    WellFormed (some left) ∧ WellFormed (some right) := by
  rw [wellFormed_some] at h
  simp [h.1.2.1, h.1.2.2, h.2.2.1, h.2.2.2]

variable (xs : List L)

lemma buildBalancedNodes_erase : (buildBalancedNodes xs).map erase = ofLeaves xs ∧
      ∀ n ∈ buildBalancedNodes xs, n.Accurate := by
  fun_induction buildBalancedNodes xs with
  | case1 => simp [ofLeaves]
  | case2 l => simp [ofLeaves, Accurate]
  | case3 l l' rest middle ihl ihr =>
    obtain ⟨hl, hlacc⟩ := ihl
    obtain ⟨hr, hracc⟩ := ihr
    simp only [ofLeaves]
    rw [← hl, ← hr]
    cases hleft : buildBalancedNodes ((l :: l' :: rest).take middle) with
    | none => simp
    | some left =>
      cases hright : buildBalancedNodes ((l :: l' :: rest).drop middle) with
      | none => simp
      | some right => simp [hlacc left hleft, hracc right hright]

lemma buildBalancedNodes_spec :
    WellFormed (buildBalancedNodes xs) ∧ rootLeaves (buildBalancedNodes xs) = xs := by
  obtain ⟨herase, hacc⟩ := buildBalancedNodes_erase xs
  by_cases hxs : xs = []
  · subst hxs
    simp [buildBalancedNodes]
  · obtain ⟨t, ht, hleaves, hbal, -⟩ := ofLeaves_spec xs hxs
    obtain ⟨n, hn, rfl⟩ := Option.map_eq_some_iff.1 (herase.trans ht)
    rw [hn, wellFormed_some]
    exact ⟨⟨hacc n hn, hbal⟩, hleaves⟩

lemma concatRaw_spec {left right : Option (SequenceNode L)} (hl : WellFormed left)
    (hr : WellFormed right) :
    WellFormed (concatRaw left right) ∧
      rootLeaves (concatRaw left right) = rootLeaves left ++ rootLeaves right := by
  cases left with
  | none => simp [concatRaw, hr]
  | some left =>
    cases right with
    | none => simp [concatRaw, hl]
    | some right =>
      rw [wellFormed_some] at hl hr
      obtain ⟨hacc, herase⟩ := concatNodes_spec hl.1 hr.1
      rw [concatRaw, wellFormed_some, rootLeaves_some, leaves, herase]
      exact ⟨⟨hacc, (join_spec hl.2 hr.2).1⟩, leaves_join _ _⟩

lemma popFirst_spec (h : WellFormed (some n)) :
    WellFormed (popFirst n).1 ∧ (popFirst n).2 :: rootLeaves (popFirst n).1 = n.leaves := by
  induction n with
  | leaf l => simp [popFirst]
  | branch left right a b c d ihl _ =>
    obtain ⟨hl, hr⟩ := h.children
    obtain ⟨hrest, hleaves⟩ := ihl hl
    obtain ⟨hwf, hcat⟩ := concatRaw_spec hrest hr
    refine ⟨hwf, ?_⟩
    rw [popFirst, hcat, leaves_branch, ← hleaves]
    rfl

lemma popLast_spec (h : WellFormed (some n)) :
    WellFormed (popLast n).1 ∧ rootLeaves (popLast n).1 ++ [(popLast n).2] = n.leaves := by
  induction n with
  | leaf l => simp [popLast]
  | branch left right a b c d _ ihr =>
    obtain ⟨hl, hr⟩ := h.children
    obtain ⟨hrest, hleaves⟩ := ihr hr
    obtain ⟨hwf, hcat⟩ := concatRaw_spec hl hrest
    refine ⟨hwf, ?_⟩
    rw [popLast, hcat, leaves_branch, ← hleaves, ← append_assoc]
    rfl

/-- Lists of leaves joined with the pair at the seam rechunked. -/
def joinLeaves (xs ys : List L) (next : ℕ) : List L :=
  match xs.getLast?, ys with
  | some l, r :: ys => xs.dropLast ++ (SequenceLeaf.rechunkPair l r next).1 ++ ys
  | _, ys => xs ++ ys

@[simp] lemma joinLeaves_nil_left (ys : List L) (next : ℕ) : joinLeaves [] ys next = ys := rfl

@[simp] lemma joinLeaves_nil_right (next : ℕ) : joinLeaves xs [] next = xs := by
  simp [joinLeaves]

@[simp] lemma joinLeaves_concat_cons (xs ys : List L) (l r : L) (next : ℕ) :
    joinLeaves (xs ++ [l]) (r :: ys) next = xs ++ (SequenceLeaf.rechunkPair l r next).1 ++ ys := by
  simp [joinLeaves]

/-- Concatenating trees concatenates the lists of their leaves. -/
lemma concatNormalized_spec {left right : Option (SequenceNode L)} (hl : WellFormed left)
    (hr : WellFormed right) (next : ℕ) :
    WellFormed (concatNormalized left right next).1 ∧
      rootLeaves (concatNormalized left right next).1
        = joinLeaves (rootLeaves left) (rootLeaves right) next := by
  cases left with
  | none => exact ⟨hr, rfl⟩
  | some left =>
    cases right with
    | none => exact ⟨hl, (joinLeaves_nil_right _ next).symm⟩
    | some right =>
      obtain ⟨hlrest, hlleaves⟩ := popLast_spec hl
      obtain ⟨hrrest, hrleaves⟩ := popFirst_spec hr
      obtain ⟨hmid, hmidleaves⟩ := buildBalancedNodes_spec
        (SequenceLeaf.rechunkPair (popLast left).2 (popFirst right).2 next).1
      obtain ⟨hfront, hfrontleaves⟩ := concatRaw_spec hlrest hmid
      obtain ⟨hall, hallleaves⟩ := concatRaw_spec hfront hrrest
      refine ⟨hall, ?_⟩
      rw [rootLeaves_some, rootLeaves_some, ← hlleaves, ← hrleaves, joinLeaves_concat_cons,
        ← hmidleaves, ← hfrontleaves, ← hallleaves]
      rfl

/-- A list of leaves split at a position, the leaf at the position included. -/
def splitLeaves : List L → ℕ → List L × List L
  | [], _ => ([], [])
  | l :: ls, position =>
    if position = 0 then ([], l :: ls)
    else if position < SequenceLeaf.len l then
      ((SequenceLeaf.splitAt l position).1.toList, (SequenceLeaf.splitAt l position).2.toList ++ ls)
    else
      (l :: (splitLeaves ls (position - SequenceLeaf.len l)).1,
        (splitLeaves ls (position - SequenceLeaf.len l)).2)

@[simp] lemma splitLeaves_zero : splitLeaves xs 0 = ([], xs) := by
  cases xs <;> simp [splitLeaves]

variable {xs : List L}

section

variable (hpos : ∀ l ∈ xs, 0 < SequenceLeaf.len l)

include hpos

/-- A split in front of the end of the first list. -/
lemma splitLeaves_append_left (ys : List L) (h : position ≤ lenOf xs) :
    splitLeaves (xs ++ ys) position
      = ((splitLeaves xs position).1, (splitLeaves xs position).2 ++ ys) := by
  induction xs generalizing position with
  | nil =>
    obtain rfl : position = 0 := by simpa using h
    simp
  | cons l xs ih =>
    rw [forall_mem_cons] at hpos
    rw [lenOf_cons] at h
    rw [cons_append, splitLeaves, splitLeaves]
    split_ifs
    · simp
    · simp
    · rw [ih hpos.2 (by omega)]

/-- A split behind the first list. -/
lemma splitLeaves_append_right (ys : List L) (h : lenOf xs ≤ position) :
    splitLeaves (xs ++ ys) position = (xs ++ (splitLeaves ys (position - lenOf xs)).1,
        (splitLeaves ys (position - lenOf xs)).2) := by
  induction xs generalizing position with
  | nil => simp
  | cons l xs ih =>
    rw [forall_mem_cons] at hpos
    rw [lenOf_cons] at h ⊢
    rw [cons_append, splitLeaves, if_neg (by omega), if_neg (by omega),
      ih hpos.2 (by omega), Nat.sub_sub]
    rfl

lemma splitLeaves_of_le (h : lenOf xs ≤ position) : splitLeaves xs position = (xs, []) := by
  have hright := splitLeaves_append_right hpos [] h
  simpa [splitLeaves] using hright

end

@[simp] lemma wellFormed_map_leaf (l : Option L) : WellFormed (l.map leaf) := by
  cases l <;> simp [Accurate]

omit [SequenceLeaf L] in
@[simp] lemma rootLeaves_map_leaf (l : Option L) : rootLeaves (l.map leaf) = l.toList := by
  cases l <;> simp

/-- Splitting a tree splits the list of its leaves. -/
lemma splitAt_spec (h : WellFormed (some n))
    (hpos : ∀ l ∈ n.leaves, 0 < SequenceLeaf.len l) (position : ℕ) :
    WellFormed (n.splitAt position).1 ∧ WellFormed (n.splitAt position).2 ∧
      (rootLeaves (n.splitAt position).1, rootLeaves (n.splitAt position).2)
        = splitLeaves n.leaves position := by
  induction n generalizing position with
  | leaf l =>
    rw [splitAt]
    split_ifs with hzero hlen
    · simpa [hzero] using h
    · rw [splitLeaves_of_le hpos (by simpa using hlen)]
      simpa using h
    · simp [splitLeaves, hzero, Nat.lt_of_not_le hlen]
  | branch left right a b c d ihl ihr =>
    obtain ⟨hl, hr⟩ := h.children
    have hlen : a = lenOf (left.leaves ++ right.leaves) :=
      ((wellFormed_some _).1 h).1.len_eq
    have hllen : left.len = lenOf left.leaves := ((wellFormed_some _).1 hl).1.len_eq
    have hlpos : ∀ l ∈ left.leaves, 0 < SequenceLeaf.len l :=
      fun l hmem => hpos l (mem_append_left _ hmem)
    have hrpos : ∀ l ∈ right.leaves, 0 < SequenceLeaf.len l :=
      fun l hmem => hpos l (mem_append_right _ hmem)
    rw [splitAt]
    split_ifs with hzero hge hmid hlt
    · simpa [hzero] using h
    · rw [splitLeaves_of_le hpos (by rw [leaves_branch, ← hlen]; exact hge)]
      simpa using h
    · rw [leaves_branch, splitLeaves_append_left hlpos _ (by omega),
        splitLeaves_of_le hlpos (by omega)]
      exact ⟨hl, hr, rfl⟩
    · obtain ⟨hbefore, hafter, hsplit⟩ := ihl hl hlpos position
      obtain ⟨hwf, hcat⟩ := concatRaw_spec hafter hr
      refine ⟨hbefore, hwf, ?_⟩
      rw [hcat, leaves_branch, splitLeaves_append_left hlpos _ (by omega), ← hsplit]
      rfl
    · obtain ⟨hbefore, hafter, hsplit⟩ := ihr hr hrpos (position - left.len)
      obtain ⟨hwf, hcat⟩ := concatRaw_spec hl hbefore
      refine ⟨hwf, hafter, ?_⟩
      rw [hcat, leaves_branch, splitLeaves_append_right hlpos _ (by omega), ← hllen, ← hsplit]
      rfl

lemma splitNode_spec {root : Option (SequenceNode L)} (h : WellFormed root)
    (hpos : ∀ l ∈ rootLeaves root, 0 < SequenceLeaf.len l) (position : ℕ) :
    WellFormed (splitNode root position).1 ∧ WellFormed (splitNode root position).2 ∧
      (rootLeaves (splitNode root position).1, rootLeaves (splitNode root position).2)
        = splitLeaves (rootLeaves root) position := by
  cases root with
  | none => simp [splitNode, splitLeaves]
  | some n => exact splitAt_spec h hpos position

/-- A position is located in the leaf that holds it. -/
lemma locateNode_spec (h : n.Accurate) (hlt : position < n.len) :
    ∃ front l back, n.leaves = front ++ l :: back ∧ lenOf front ≤ position ∧
      position < lenOf front + SequenceLeaf.len l ∧
      n.locateNode position = some (l, position - lenOf front) := by
  induction n generalizing position with
  | leaf l =>
    have hlt' : position < SequenceLeaf.len l := hlt
    refine ⟨[], l, [], rfl, by simp, by simpa using hlt', ?_⟩
    rw [locateNode, Nat.min_eq_left hlt'.le, lenOf_nil, Nat.sub_zero]
  | branch left right a b c d ihl ihr =>
    have hlen := h.len_eq
    obtain ⟨-, hl, hr⟩ := h
    rw [leaves_branch, lenOf_append, ← hl.len_eq, ← hr.len_eq] at hlen
    rw [locateNode]
    split_ifs with hleft
    · obtain ⟨front, l, back, hleaves, hge, hlt', hloc⟩ := ihl hl hleft
      exact ⟨front, l, back ++ right.leaves, by simp [hleaves], hge, hlt', hloc⟩
    · obtain ⟨front, l, back, hleaves, hge, hlt', hloc⟩ :=
        ihr hr (show position - left.len < right.len by omega)
      have hfront : lenOf (left.leaves ++ front) = left.len + lenOf front := by
        rw [lenOf_append, hl.len_eq]
      refine ⟨left.leaves ++ front, l, back, by simp [hleaves], by omega, by omega, ?_⟩
      rw [hloc, hfront, Nat.sub_sub]

/-- The visits of a list of leaves that starts at a position. -/
def visitLeaves : List L → ℕ → ℕ → ℕ → List (L × ℕ × ℕ)
  | [], _, _, _ => []
  | l :: ls, nodeStart, start, stop =>
    (leaf l).visitNodeRange nodeStart start stop
      ++ visitLeaves ls (nodeStart + SequenceLeaf.len l) start stop

lemma visitLeaves_append (xs ys : List L) (nodeStart start stop : ℕ) :
    visitLeaves (xs ++ ys) nodeStart start stop = visitLeaves xs nodeStart start stop
        ++ visitLeaves ys (nodeStart + lenOf xs) start stop := by
  induction xs generalizing nodeStart with
  | nil => simp [visitLeaves]
  | cons l xs ih => simp [visitLeaves, ih, add_assoc]

lemma visitLeaves_eq_nil (xs : List L) {nodeStart start stop : ℕ}
    (h : nodeStart + lenOf xs ≤ start ∨ stop ≤ nodeStart) :
    visitLeaves xs nodeStart start stop = [] := by
  induction xs generalizing nodeStart with
  | nil => rfl
  | cons l xs ih =>
    rw [lenOf_cons] at h
    rw [visitLeaves, ih (by omega), visitNodeRange, if_pos (by omega), append_nil]

/-- The visits of a tree are those of its leaves. -/
lemma visitNodeRange_eq (h : n.Accurate) (nodeStart start stop : ℕ) :
    n.visitNodeRange nodeStart start stop = visitLeaves n.leaves nodeStart start stop := by
  induction n generalizing nodeStart with
  | leaf l => simp [visitLeaves]
  | branch left right a b c d ihl ihr =>
    have hlen : a = lenOf (left.leaves ++ right.leaves) := h.len_eq
    obtain ⟨-, hl, hr⟩ := h
    rw [visitNodeRange]
    split_ifs with hout
    · rw [visitLeaves_eq_nil _ (by rw [leaves_branch, ← hlen]; exact hout)]
    · rw [ihl hl, ihr hr, leaves_branch, visitLeaves_append, hl.len_eq]

/-! ### The nodes of a tree -/

omit [SequenceLeaf L] in
/-- A node and the nodes below it. -/
def nodes : SequenceNode L → List (SequenceNode L)
  | leaf l => [leaf l]
  | branch left right len secondaryLen leafCount height =>
    branch left right len secondaryLen leafCount height :: (left.nodes ++ right.nodes)

/-- The nodes of an accurate tree are accurate, and their leaves stand together. -/
lemma Accurate.of_mem_nodes {m : SequenceNode L} (h : n.Accurate) (hm : m ∈ n.nodes) :
    m.Accurate ∧ ∃ front back, n.leaves = front ++ m.leaves ++ back := by
  induction n with
  | leaf l =>
    rw [nodes, mem_singleton] at hm
    exact ⟨hm ▸ h, [], [], by simp [hm]⟩
  | branch left right a b c d ihl ihr =>
    rw [nodes, mem_cons, mem_append] at hm
    obtain rfl | hleft | hright := hm
    · exact ⟨h, [], [], by simp⟩
    · obtain ⟨hacc, front, back, hleaves⟩ := ihl h.2.1 hleft
      exact ⟨hacc, front, back ++ right.leaves, by simp [hleaves]⟩
    · obtain ⟨hacc, front, back, hleaves⟩ := ihr h.2.2 hright
      exact ⟨hacc, left.leaves ++ front, back, by simp [hleaves]⟩

lemma Accurate.leafCount_eq (h : n.Accurate) : n.leafCount = n.leaves.length := by
  induction n with
  | leaf l => rfl
  | branch left right a b c d ihl ihr =>
    obtain ⟨heq, hl, hr⟩ := h
    rw [leaves_branch, length_append, ← ihl hl, ← ihr hr, heq]
    rfl

lemma Accurate.secondaryLen_eq (h : n.Accurate) :
    n.secondaryLen = (n.leaves.map SequenceLeaf.secondaryLen).sum := by
  induction n with
  | leaf l => simp [secondaryLen]
  | branch left right a b c d ihl ihr =>
    obtain ⟨heq, hl, hr⟩ := h
    rw [leaves_branch, map_append, sum_append, ← ihl hl, ← ihr hr, heq]
    rfl

end SequenceNode

namespace PersistentSequence

open SequenceNode

variable {L : Type} [SequenceLeaf L] {s r : PersistentSequence L}

def leaves (s : PersistentSequence L) : List L := rootLeaves s.root

/-- The invariant of a sequence: an accurate balanced tree without empty leaves. -/
structure WF (s : PersistentSequence L) : Prop where
  root : WellFormed s.root
  pos : ∀ l ∈ s.leaves, 0 < SequenceLeaf.len l

lemma WF.len_eq (h : s.WF) : s.len = lenOf s.leaves := by
  obtain ⟨_ | n⟩ := s
  · rfl
  · exact ((wellFormed_some n).1 h.root).1.len_eq

lemma fromLeaves_spec {xs : List L} (hpos : ∀ l ∈ xs, 0 < SequenceLeaf.len l) :
    (fromLeaves xs).WF ∧ (fromLeaves xs).leaves = xs := by
  obtain ⟨hwf, hleaves⟩ := buildBalancedNodes_spec xs
  exact ⟨⟨hwf, by rw [leaves, fromLeaves, hleaves]; exact hpos⟩, hleaves⟩

lemma locate_spec (h : s.WF) {position : ℕ} (hlt : position < s.len) :
    ∃ front l back, s.leaves = front ++ l :: back ∧ lenOf front ≤ position ∧
      position < lenOf front + SequenceLeaf.len l ∧
      s.locate position = some (l, position - lenOf front) := by
  obtain ⟨_ | n⟩ := s
  · exact absurd hlt (Nat.not_lt_zero _)
  · rw [locate, if_neg (Nat.not_le.2 hlt)]
    exact locateNode_spec ((wellFormed_some n).1 h.root).1 hlt

lemma visitRange_eq (h : s.WF) {start stop : ℕ} (hle : start ≤ stop) (hlen : stop ≤ s.len) :
    s.visitRange start stop = visitLeaves s.leaves 0 start stop := by
  rw [visitRange, Nat.min_eq_left (hle.trans hlen), Nat.min_eq_left hlen, max_eq_left hle]
  obtain ⟨_ | n⟩ := s
  · rfl
  · exact visitNodeRange_eq ((wellFormed_some n).1 h.root).1 0 start stop

/-- A replacement splits the list of leaves twice and joins it at the two seams. -/
lemma replaceRange_spec (hs : s.WF) (hr : WellFormed r.root) {start stop : ℕ} (hle : start ≤ stop)
    (hlen : stop ≤ s.len) (hpos : ∀ l ∈ (splitLeaves s.leaves start).2, 0 < SequenceLeaf.len l)
    (next : ℕ) :
    ∃ next', WellFormed (s.replaceRange start stop r next).1.root ∧
      (s.replaceRange start stop r next).1.leaves
        = joinLeaves (joinLeaves (splitLeaves s.leaves start).1 r.leaves next)
          (splitLeaves (splitLeaves s.leaves start).2 (stop - start)).2 next' := by
  obtain ⟨hleft, htail, hsplit⟩ := splitNode_spec hs.root hs.pos start
  have hleaves := congrArg Prod.snd hsplit
  rw [leaves] at hpos
  rw [← hleaves] at hpos
  obtain ⟨-, hright, hsplit'⟩ := splitNode_spec htail hpos (stop - start)
  obtain ⟨hfront, hfrontleaves⟩ := concatNormalized_spec hleft hr next
  set front := concatNormalized (splitNode s.root start).1 r.root next
  obtain ⟨hall, hallleaves⟩ := concatNormalized_spec hfront hright front.2
  refine ⟨front.2, ?_⟩
  have hrun : (s.replaceRange start stop r next).1.root = (concatNormalized front.1
      (splitNode (splitNode s.root start).2 (stop - start)).2 front.2).1 := by
    rw [replaceRange, Nat.min_eq_left (hle.trans hlen), Nat.min_eq_left hlen, max_eq_left hle]
    rfl
  rw [leaves, hrun, hallleaves, hfrontleaves, leaves, ← congrArg Prod.fst hsplit,
    ← congrArg Prod.snd hsplit, ← congrArg Prod.snd hsplit']
  exact ⟨hall, rfl⟩

end PersistentSequence

end SpaceQuery.Editor
