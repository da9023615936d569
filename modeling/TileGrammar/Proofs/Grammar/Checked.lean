import TileGrammar.Grammar.Grammar
import TileGrammar.Proofs.Order.Traversal

/-!
# What a check promises

A check runs over the dials and stops at the first one that is off its range.
So a grammar passes exactly when it has a category, a palette and all dials
within their limits, and any other grammar is reported as a fault of its own.
-/

set_option autoImplicit false

namespace TileGrammar

theorem Dial.mem_all (d : Dial) : d ∈ all := by cases d <;> decide

namespace Grammar

theorem checkDial_eq_ok_iff (g : Grammar) (d : Dial) :
    g.checkDial d = .ok () ↔ (g.dial d).toNat ≤ d.limit := by
  simp only [checkDial]
  split <;> simp <;> omega

theorem check_eq_ok_iff (g : Grammar) : g.check = .ok () ↔
    blankText g.category = false ∧ blankText g.palette = false ∧
      ∀ d, (g.dial d).toNat ≤ d.limit := by
  have hdials : Dial.all.forM g.checkDial = .ok () ↔ ∀ d, (g.dial d).toNat ≤ d.limit := by
    simp only [forM_eq_ok_iff, checkDial_eq_ok_iff, Dial.mem_all, forall_const]
  unfold check
  cases blankText g.category <;> cases blankText g.palette <;> simp [← hdials]

theorem kind_of_check_eq_error {g : Grammar} {e : Error} (h : g.check = .error e) :
    e.kind = .invalidGrammar := by
  unfold check at h
  split at h
  · cases h
    rfl
  · split at h
    · cases h
      rfl
    · obtain ⟨d, -, hd⟩ := mem_of_forM_eq_error h
      simp only [checkDial] at hd
      split at hd
      · cases hd
        rfl
      · cases hd

end Grammar

end TileGrammar
