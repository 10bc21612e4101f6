import SpaceQuery.Lease.Interleaving

/-!
Retained sessions of connections that have ended. A connection incarnation is marked as ended, and
its sweep then takes the sessions that were retained under it out of the slots, one at a time.
-/

namespace SpaceQuery.Lease

open Runs

open Lease.System

lemma run_inv (es : List Event) : Inv (run step init es) :=
  run_invariant (fun s e h => (step_inv s e h).1) inv_init es

/-- Everything that happens leads to a later state. -/
lemma run_later {s : System} (h : Inv s) (es : List Event) : s.Later (run step s es) :=
  (run_invariant (P := fun s' => Inv s' ∧ s.Later s')
    (fun s' e hs' => ⟨(step_inv s' e hs'.1).1, hs'.2.trans (step_inv s' e hs'.1).2⟩)
    ⟨h, .refl s⟩ es).2

/-- At each moment of every run every session that exists is in one place: in one slot, with
one task or closed. Once the sweep of a generation has finished no slot ever again holds a
session of it, a slot that was closed never again holds a session, and a session that was
closed stays closed. -/
theorem swept_or_refused (es es' : List Event) :
    let s := run step init es
    let s' := run step s es'
    (∀ x < s'.nextSession, s'.slotsHeld x + s'.tasksHeld x + s'.closed.count x = 1) ∧
    (∀ g ∈ s.swept, ∀ slot ∈ s'.slots, ∀ entry ∈ slot.entry, entry.connectionGeneration ≠ g) ∧
    (∀ (k : ℕ) (slot : DbSessionLeaseSlot), s.slots[k]? = some slot → slot.closed →
      ∃ slot' : DbSessionLeaseSlot, s'.slots[k]? = some slot' ∧ slot'.closed ∧ slot'.entry = none) ∧
    s.closed ⊆ s'.closed := by
  intro s s'
  have hlater : s.Later s' := run_later (run_inv es) es'
  have hinv : Inv s' := by
    rw [show s' = run step init (es ++ es') from (run_append step init es es').symm]
    exact run_inv (es ++ es')
  refine ⟨fun x hx => (hinv.places x).trans (if_pos hx), fun g hg slot hslot entry hentry heq => ?_,
    fun k slot hslot hclosed => ?_, hlater.closed⟩
  · exact (hinv.swept g (hlater.swept hg)).2.2 slot hslot ⟨entry, hentry, heq⟩
  · obtain ⟨slot', hslot', hclosed'⟩ := hlater.slots k slot hslot hclosed
    exact ⟨slot', hslot', hclosed', hinv.closedEmpty slot' (List.mem_of_getElem? hslot') hclosed'⟩

end SpaceQuery.Lease
