import Mathlib.Order.Defs.LinearOrder

/-!
Comparisons that choose their order pair by pair.
-/

namespace PairOrder

variable {α κ τ : Type*}

lemma transCmp_comap {cmp : τ → τ → Ordering} (h : Std.TransCmp cmp) (f : α → τ) :
    Std.TransCmp fun a b => cmp (f a) (f b) :=
  { eq_swap := h.eq_swap, isLE_trans := h.isLE_trans }

/-- Elements without a value that stand at one end. -/
theorem transCmp_of_nulls (isNull : α → Bool) (null : Ordering) {cmp : α → α → Ordering}
    (hnull : null ≠ .eq) (hcmp : ∀ a b, isNull a ∨ isNull b →
      cmp a b = if isNull a then if isNull b then .eq else null else null.swap)
    (h : Std.TransCmp fun a b : {a // isNull a = false} => cmp a b) : Std.TransCmp cmp where
  eq_swap {a b} := by
    cases ha : isNull a <;> cases hb : isNull b
    case false.false => exact h.eq_swap (a := ⟨a, ha⟩) (b := ⟨b, hb⟩)
    all_goals simp [hcmp, ha, hb]
  isLE_trans {a b c} hab hbc := by
    cases ha : isNull a <;> cases hb : isNull b <;> cases hc : isNull c
    case false.false.false =>
      exact h.isLE_trans (a := ⟨a, ha⟩) (b := ⟨b, hb⟩) (c := ⟨c, hc⟩) hab hbc
    all_goals cases null <;> simp_all

/-- Elements with keys are compared by key, all others by name. -/
def mixed [Ord κ] [Ord τ] (key : α → Option κ) (name : α → τ) (a b : α) : Ordering :=
  match key a, key b with
  | some i, some j => compare i j
  | _, _ => compare (name a) (name b)

variable [Ord κ] [Std.TransOrd κ] [Ord τ] [Std.TransOrd τ] {key : α → Option κ} {name : α → τ}

open Std.OrientedCmp (gt_iff_lt)

theorem transCmp_mixed_iff (hkey : ∀ a b, compare (name a) (name b) = .eq → key a = key b) :
    Std.TransCmp (mixed key name) ↔ ∀ x t y i j, key x = some i → key t = none →
      key y = some j → compare (name x) (name t) = .lt → compare (name t) (name y) = .lt →
        compare i j = .lt := by
  constructor
  · intro h x t y i j hx ht hy hxt hty
    have hlt := @Std.TransCmp.lt_trans _ (mixed key name) _ x t y
      (by simp only [mixed, hx, ht, hxt]) (by simp only [mixed, ht, hty])
    simpa only [mixed, hx, hy] using hlt
  · intro h
    have hlt : ∀ {a b}, key a ≠ key b → (compare (name a) (name b)).isLE →
        compare (name a) (name b) = .lt := fun hne hle =>
      (Ordering.isLE_iff_eq_lt_or_eq_eq.mp hle).resolve_right fun heq => hne (hkey _ _ heq)
    refine { eq_swap := fun {a b} => ?_, isLE_trans := fun {a b c} hab hbc => ?_ }
    · cases ha : key a <;> cases hb : key b <;> simp only [mixed, ha, hb] <;>
        exact Std.OrientedOrd.eq_swap
    · cases ha : key a <;> cases hb : key b <;> cases hc : key c <;>
        simp only [mixed, ha, hb, hc] at hab hbc ⊢
      case some.some.none i j =>
        refine Ordering.isLE_iff_ne_gt.mpr fun hgt => Ordering.isLE_iff_ne_gt.mp hab ?_
        exact gt_iff_lt.mpr (h b c a j i hb hc ha (hlt (by simp [hb, hc]) hbc) (gt_iff_lt.mp hgt))
      case none.some.some j k =>
        refine Ordering.isLE_iff_ne_gt.mpr fun hgt => Ordering.isLE_iff_ne_gt.mp hbc ?_
        exact gt_iff_lt.mpr (h c a b k j hc ha hb (gt_iff_lt.mp hgt) (hlt (by simp [ha, hb]) hab))
      case some.none.some i k =>
        rw [h a b c i k ha hb hc (hlt (by simp [ha, hb]) hab) (hlt (by simp [hb, hc]) hbc)]
        rfl
      all_goals exact Std.TransOrd.isLE_trans hab hbc

end PairOrder
