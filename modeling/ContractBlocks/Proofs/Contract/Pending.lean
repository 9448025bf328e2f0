import ContractBlocks.Proofs.Contract.Components
import Mathlib.Algebra.BigOperators.Group.Multiset.Basic
import Mathlib.Algebra.Order.Group.Nat
import Mathlib.Logic.Relation

namespace ContractBlocks.Contract

open Relation

/-- A count on its way: how many contracts have been taken, and which still wait. Those that wait are
    in no order. -/
structure Tally where
  counted : Nat
  pending : Multiset Contract

namespace Tally

/-- Any contract that waits is taken, and the contracts directly inside it wait from then on. -/
inductive Turn : Tally → Tally → Prop
  | take (counted : Nat) (c : Contract) (pending : Multiset Contract) :
    Turn ⟨counted, c ::ₘ pending⟩ ⟨counted + 1, c.continuations + pending⟩

/-- The count of a contract before anything has been taken. -/
def start (c : Contract) : Tally :=
  ⟨0, {c}⟩

/-- The number of contracts that are still to be counted, those inside others included. -/
def left (t : Tally) : Nat :=
  (t.pending.map count).sum

theorem left_coe (counted : Nat) (cs : List Contract) : (Tally.mk counted cs).left = countAll cs := by
  induction cs with
  | nil => rfl
  | cons c cs ih =>
    rw [countAll, ← ih, left, ← Multiset.cons_coe, Multiset.map_cons, Multiset.sum_cons]
    rfl

theorem left_start (c : Contract) : (start c).left = c.count :=
  Multiset.sum_singleton _

/-- A turn moves one contract from those that are still to be counted to those that are. A list of
    cases may wait after it, but all of them were inside the contract that was taken. -/
theorem Turn.left_eq {t u : Tally} (hturn : Turn t u) :
    t.left = u.left + 1 ∧ u.counted = t.counted + 1 := by
  obtain ⟨counted, c, pending⟩ := hturn
  refine ⟨?_, rfl⟩
  have hinside : ((c.continuations : Multiset Contract).map count).sum = countAll c.continuations :=
    left_coe counted c.continuations
  rw [left, left, Multiset.map_cons, Multiset.sum_cons, Multiset.map_add, Multiset.sum_add, hinside,
    count_eq_continuations c]
  omega

/-- What has been counted and what is left make up the same number at every turn. -/
theorem counted_add_left_eq {t u : Tally} (hturns : ReflTransGen Turn t u) :
    u.counted + u.left = t.counted + t.left := by
  induction hturns with
  | refl => rfl
  | tail _ hturn ih =>
    obtain ⟨hleft, hcounted⟩ := hturn.left_eq
    omega

/-- No count goes on for ever, since each turn leaves less to be counted. -/
theorem wellFounded_turn : WellFounded fun u t => Turn t u := by
  refine Subrelation.wf (fun {u t} hturn => ?_) (measure left).wf
  change u.left < t.left
  have hleft := hturn.left_eq.1
  omega

theorem exists_turn {t : Tally} (hpending : t.pending ≠ 0) : ∃ u, Turn t u := by
  obtain ⟨counted, pending⟩ := t
  obtain ⟨c, hc⟩ := Multiset.exists_mem_of_ne_zero hpending
  obtain ⟨others, rfl⟩ := Multiset.exists_cons_of_mem hc
  exact ⟨_, .take counted c others⟩

/-- Taking the contracts from the top of a stack is one of the orders. -/
theorem turns_countPending (counted : Nat) (pending : List Contract) :
    ReflTransGen Turn ⟨counted, pending⟩ ⟨countPending counted pending, 0⟩ := by
  fun_induction countPending counted pending with
  | case1 counted => exact .refl
  | case2 counted c pending ih =>
    have hpushed : ((c.continuations.reverse ++ pending : List Contract) : Multiset Contract) =
        c.continuations + pending := by
      rw [← Multiset.coe_add, Multiset.coe_reverse]
    rw [hpushed] at ih
    exact .head (.take counted c pending) ih

end Tally

/-- The number of contracts in a contract is found by taking those that wait in any order whatever. A
    count cannot go on for ever, nor stop while a contract waits, and once none waits it has come to
    the number that recursion over the contract gives. -/
theorem size_in_any_order (c : Contract) :
    c.size = c.count ∧ ReflTransGen Tally.Turn (.start c) ⟨c.size, 0⟩ ∧
      Acc (fun u t => Tally.Turn t u) (.start c) ∧
      ∀ t, ReflTransGen Tally.Turn (.start c) t →
        t.counted ≤ c.count ∧ (t.pending ≠ 0 → ∃ u, t.Turn u) ∧ (t.pending = 0 → t.counted = c.count) := by
  refine ⟨c.size_eq_count, Tally.turns_countPending 0 [c], Tally.wellFounded_turn.apply _, ?_⟩
  intro t hturns
  have htotal : t.counted + t.left = c.count := by
    have hstart := Tally.counted_add_left_eq hturns
    rwa [Tally.left_start, Tally.start, Nat.zero_add] at hstart
  refine ⟨by omega, Tally.exists_turn, fun hdone => ?_⟩
  have hleft : t.left = 0 := by
    rw [Tally.left, hdone]
    rfl
  omega

end ContractBlocks.Contract
