import Mathlib.Algebra.Ring.Nat
import Mathlib.Data.Nat.Find
import Mathlib.Data.Nat.Log
import PiRelay.Library.ParentWalk

/-! Walks up a tree whose nodes name their parents freely. From a key the walk ends, or after
a tail it goes round a cycle for ever. An anchor that moves to the walker at each power of
two is met again at a depth that tail and cycle determine. -/
namespace Library

open List Option

universe u v

namespace ParentMap

variable {Key : Type u} {Node : Type v} {tree : ParentMap Key Node} {key : Option Key}

/-- The node so many steps above the first one. -/
def visit (tree : ParentMap Key Node) (key : Option Key) : Nat → Option Node
  | 0 => key.bind tree.lookup
  | depth + 1 => (tree.visit key depth).bind fun node => (tree.parent node).bind tree.lookup

variable {depth : Nat} {node : Node}

theorem visit_succ_of_some (isNode : tree.visit key depth = some node) :
    tree.visit key (depth + 1) = (tree.parent node).bind tree.lookup := by
  rw [visit, isNode, bind_some]

theorem visit_above {name : Key} (found : tree.lookup name = some node) (depth : Nat) :
    tree.visit (some name) (depth + 1) = tree.visit (tree.parent node) depth := by
  induction depth with
  | zero => rw [visit, visit, visit, bind_some, found, bind_some]
  | succ _ ih => rw [visit, ih, visit]

theorem visit_add_congr {one other : Nat} (same : tree.visit key one = tree.visit key other)
    (more : Nat) : tree.visit key (one + more) = tree.visit key (other + more) := by
  induction more with
  | zero => exact same
  | succ _ ih => rw [← Nat.add_assoc, ← Nat.add_assoc, visit, visit, ih]

theorem visit_isSome_of_le {deeper : Nat} (isSome : (tree.visit key deeper).isSome)
    (within : depth ≤ deeper) : (tree.visit key depth).isSome := by
  induction deeper with
  | zero => rwa [Nat.le_zero.mp within]
  | succ deeper ih =>
    rcases Nat.le_succ_iff.mp within with lower | rfl
    · apply ih _ lower
      cases isNode : tree.visit key deeper with
      | none => simp [visit, isNode] at isSome
      | some => rfl
    · exact isSome

theorem walk_getElem? (tree : ParentMap Key Node) (key : Option Key) {fuel : Nat}
    (within : depth < fuel) : (tree.walk fuel key)[depth]? = tree.visit key depth := by
  induction depth generalizing key fuel with
  | zero =>
    obtain ⟨less, rfl⟩ : ∃ less, fuel = less + 1 := ⟨fuel - 1, by omega⟩
    cases key with
    | none => rfl
    | some name =>
      rw [walk, visit, bind_some]
      cases tree.lookup name with
      | none | some => rfl
  | succ depth ih =>
    obtain ⟨less, rfl⟩ : ∃ less, fuel = less + 1 := ⟨fuel - 1, by omega⟩
    cases key with
    | none =>
      have nothing : ∀ depth, tree.visit none depth = none := by
        intro depth
        induction depth with
        | zero => rfl
        | succ _ ih => rw [visit, ih, bind_none]
      rw [nothing]
      rfl
    | some name =>
      cases found : tree.lookup name with
      | none =>
        have nothing : (tree.visit (some name) (depth + 1)).isSome = false := by
          by_contra visits
          have first := visit_isSome_of_le (Bool.not_eq_false _ ▸ visits) (Nat.zero_le _)
          rw [visit, bind_some, found] at first
          cases first
        rw [isSome_eq_false_iff, isNone_iff_eq_none] at nothing
        rw [walk, found, nothing]
        rfl
      | some =>
        rw [walk, found, visit_above found]
        exact ih _ (by omega)

theorem walk_succ_of_visit (isNode : tree.visit key depth = some node) :
    tree.walk (depth + 1) key = tree.walk depth key ++ [node] := by
  have visits : ∀ earlier ≤ depth, (tree.visit key earlier).isSome := by
    intro earlier within
    exact visit_isSome_of_le (isNode ▸ rfl) within
  have length : (tree.walk depth key).length = depth := by
    apply Nat.le_antisymm (tree.walk_length_le depth key)
    by_contra short
    have last := visits (depth - 1) (by omega)
    rw [← tree.walk_getElem? key (by omega : depth - 1 < depth),
      getElem?_eq_none (by omega)] at last
    cases last
  apply ext_getElem?
  intro place
  rcases Nat.lt_trichotomy place depth with before | rfl | beyond
  · rw [tree.walk_getElem? key (by omega), getElem?_append_left (by omega),
      tree.walk_getElem? key before]
  · rw [tree.walk_getElem? key (Nat.lt_succ_self _), getElem?_append_right (by omega), length,
      Nat.sub_self, isNode]
    rfl
  · have within := tree.walk_length_le (depth + 1) key
    rw [getElem?_eq_none (by omega), getElem?_eq_none]
    rw [length_append, length, length_singleton]
    omega

theorem walk_prefix_walk (tree : ParentMap Key Node) (key : Option Key) {fuel more : Nat}
    (atMost : fuel ≤ more) : tree.walk fuel key <+: tree.walk more key := by
  induction fuel generalizing key more with
  | zero => exact nil_prefix
  | succ _ ih =>
    obtain ⟨less, rfl⟩ : ∃ less, more = less + 1 := ⟨more - 1, by omega⟩
    cases key with
    | none => exact nil_prefix
    | some name =>
      rw [walk, walk]
      cases tree.lookup name with
      | none => exact nil_prefix
      | some node => exact cons_prefix_cons.mpr ⟨rfl, ih (tree.parent node) (by omega)⟩

theorem Climbs.visit_eq {path : List Node} (climbs : tree.Climbs key path) (depth : Nat) :
    tree.visit key depth = path[depth]? := by
  rw [← climbs.walk_eq (by omega : path.length ≤ path.length + depth + 1),
    tree.walk_getElem? key (by omega)]

/-- After a tail the walk goes round a cycle: the first node that is visited again is the one
at the end of the tail. -/
structure Rho (tree : ParentMap Key Node) (key : Option Key) (tail period : Nat) : Prop where
  positive : 0 < period
  known : (tree.visit key (tail + period)).isSome
  returns : tree.visit key (tail + period) = tree.visit key tail
  distinct : ∀ depth other, depth < other → other < tail + period →
    tree.visit key depth ≠ tree.visit key other

namespace Rho

variable {tail period depth other : Nat}

section

variable (rho : tree.Rho key tail period)
include rho

theorem visit_period (beyond : tail ≤ depth) :
    tree.visit key (depth + period) = tree.visit key depth := by
  obtain ⟨more, rfl⟩ := Nat.exists_eq_add_of_le beyond
  rw [Nat.add_right_comm]
  exact visit_add_congr rho.returns more

theorem visit_round (round offset : Nat) :
    tree.visit key (tail + offset + round * period) = tree.visit key (tail + offset) := by
  induction round with
  | zero => rw [Nat.zero_mul, Nat.add_zero]
  | succ _ ih => rw [Nat.succ_mul, ← Nat.add_assoc, rho.visit_period (by omega), ih]

theorem visit_mod (beyond : tail ≤ depth) :
    tree.visit key depth = tree.visit key (tail + (depth - tail) % period) := by
  have split := Nat.mod_add_div' (depth - tail) period
  have whole : depth = tail + (depth - tail) % period + (depth - tail) / period * period := by omega
  calc tree.visit key depth
      = tree.visit key (tail + (depth - tail) % period + (depth - tail) / period * period) := by
        rw [← whole]
    _ = tree.visit key (tail + (depth - tail) % period) := rho.visit_round _ _

theorem visit_isSome (depth : Nat) : (tree.visit key depth).isSome := by
  by_cases beyond : tail ≤ depth
  · rw [rho.visit_mod beyond]
    have round := Nat.mod_lt (depth - tail) rho.positive
    exact visit_isSome_of_le rho.known (by omega)
  · exact visit_isSome_of_le rho.known (by omega)

/-- On a cycle two depths meet exactly when they differ by periods. -/
theorem visit_eq_iff (before : depth < other) :
    tree.visit key depth = tree.visit key other ↔ tail ≤ depth ∧ period ∣ other - depth := by
  constructor
  · intro same
    have onCycle : tail ≤ depth := by
      by_contra inTail
      by_cases beyond : tail ≤ other
      · rw [rho.visit_mod beyond] at same
        have round := Nat.mod_lt (other - tail) rho.positive
        exact rho.distinct depth _ (by omega) (by omega) same
      · exact rho.distinct depth other before (by have := rho.positive; omega) same
    refine ⟨onCycle, ?_⟩
    rw [rho.visit_mod onCycle, rho.visit_mod (by omega : tail ≤ other)] at same
    have oneRound := Nat.mod_lt (depth - tail) rho.positive
    have otherRound := Nat.mod_lt (other - tail) rho.positive
    have sameMod : (depth - tail) % period = (other - tail) % period := by
      rcases Nat.lt_trichotomy ((depth - tail) % period) ((other - tail) % period) with
        less | same | more
      · exact absurd same (rho.distinct _ _ (by omega) (by omega))
      · exact same
      · exact absurd same.symm (rho.distinct _ _ (by omega) (by omega))
    have whole := Nat.sub_mod_eq_zero_of_mod_eq sameMod.symm
    rw [show other - tail - (depth - tail) = other - depth by omega] at whole
    exact Nat.dvd_of_mod_eq_zero whole
  · intro condition
    obtain ⟨onCycle, rounds, hRounds⟩ := condition
    obtain ⟨offset, rfl⟩ := Nat.exists_eq_add_of_le onCycle
    have apart : other = tail + offset + rounds * period := by
      rw [Nat.mul_comm] at hRounds
      omega
    rw [apart, rho.visit_round]

end

end Rho

/-- The walk from a key ends at a root, or it runs into a cycle. -/
theorem climbs_or_rho {nodes : List Node}
    (listed : ∀ key node, tree.lookup key = some node → node ∈ nodes) (key : Option Key) :
    (∃ path, tree.Climbs key path ∧ path.length ≤ nodes.length) ∨
      ∃ tail period, tree.Rho key tail period ∧ tail + period ≤ nodes.length := by
  by_cases short : (tree.walk (nodes.length + 1) key).length ≤ nodes.length
  · left
    have climbs := Climbs.of_walk (Nat.lt_succ_of_le short)
    exact ⟨_, climbs, short⟩
  · right
    have visited : ∀ depth < nodes.length + 1, (tree.visit key depth).isSome := by
      intro depth within
      rw [← tree.walk_getElem? key within, getElem?_eq_getElem (by omega), isSome_some]
    -- More nodes are visited than there are, so one is visited again; take the first time.
    have again : ∃ other, other ≤ nodes.length ∧ ∃ depth < other,
        tree.visit key depth = tree.visit key other := by
      by_contra never
      apply short
      apply (List.Nodup.subperm _ _).length_le
      · rw [nodup_iff_getElem?_ne_getElem?]
        intro depth other before inWalk same
        have within := Nat.lt_of_lt_of_le inWalk (tree.walk_length_le _ key)
        rw [tree.walk_getElem? key (by omega), tree.walk_getElem? key within] at same
        exact never ⟨other, by omega, depth, before, same⟩
      · intro node mem
        obtain ⟨own, found⟩ := mem_walk mem
        exact listed own node found
    classical
    obtain ⟨within, depth, before, same⟩ := Nat.find_spec again
    refine ⟨depth, Nat.find again - depth, ⟨by omega, ?_, ?_, ?_⟩, by omega⟩
    · rw [show depth + (Nat.find again - depth) = Nat.find again by omega]
      exact visited _ (by omega)
    · rw [show depth + (Nat.find again - depth) = Nat.find again by omega]
      exact same.symm
    · intro one other less round sameAgain
      exact Nat.find_min again (by omega : other < Nat.find again) ⟨by omega, one, less, sameAgain⟩

/-- Some node is visited twice. -/
def GoesRound (tree : ParentMap Key Node) (key : Option Key) : Prop :=
  ∃ depth other, depth < other ∧ (tree.visit key depth).isSome ∧
    tree.visit key depth = tree.visit key other

theorem Climbs.not_goesRound {path : List Node} (climbs : tree.Climbs key path) :
    ¬ tree.GoesRound key := by
  intro goesRound
  obtain ⟨depth, other, before, isSome, same⟩ := goesRound
  rw [climbs.visit_eq depth, climbs.visit_eq other] at same
  rw [climbs.visit_eq depth] at isSome
  have within : other < path.length := by
    by_contra beyond
    rw [same, getElem?_eq_none (by omega)] at isSome
    cases isSome
  exact (nodup_iff_getElem?_ne_getElem?.mp climbs.nodup) depth other before within same

theorem Rho.goesRound {tail period : Nat} (rho : tree.Rho key tail period) : tree.GoesRound key := by
  have positive := rho.positive
  exact ⟨tail, tail + period, by omega, rho.visit_isSome tail, rho.returns.symm⟩

/-- Where the anchor stands that a walker is compared with. -/
def anchorDepth (depth : Nat) : Nat := 2 ^ Nat.log 2 depth - 1

/-- Where a walker first meets its anchor. -/
def meetingDepth (tail period : Nat) : Nat := 2 ^ Nat.clog 2 (max (tail + 1) period) - 1 + period

theorem anchorDepth_lt (positive : 0 < depth) : anchorDepth depth < depth := by
  have atMost := Nat.pow_log_le_self 2 (Nat.ne_of_gt positive)
  rw [anchorDepth]
  omega

namespace Rho

variable {tail period depth : Nat}

section

variable (rho : tree.Rho key tail period)
include rho

theorem meets_iff (positive : 0 < depth) :
    tree.visit key depth = tree.visit key (anchorDepth depth) ↔
      tail < 2 ^ Nat.log 2 depth ∧ period ∣ depth - anchorDepth depth := by
  rw [eq_comm, rho.visit_eq_iff (anchorDepth_lt positive), anchorDepth]
  have positivePower : 0 < 2 ^ Nat.log 2 depth := Nat.pow_pos (by omega)
  constructor
  · intro meets
    exact ⟨by omega, meets.2⟩
  · intro meets
    exact ⟨by omega, meets.2⟩

theorem meets :
    tree.visit key (meetingDepth tail period) =
      tree.visit key (anchorDepth (meetingDepth tail period)) := by
  have enough := Nat.le_pow_clog (by omega : 1 < 2) (max (tail + 1) period)
  have positive := rho.positive
  rw [rho.meets_iff (by rw [meetingDepth]; omega)]
  have power : Nat.log 2 (meetingDepth tail period) = Nat.clog 2 (max (tail + 1) period) := by
    apply Nat.log_eq_of_pow_le_of_lt_pow
    · rw [meetingDepth]
      omega
    · rw [meetingDepth, Nat.pow_succ]
      omega
  rw [anchorDepth, power]
  refine ⟨by omega, 1, ?_⟩
  rw [meetingDepth, Nat.add_sub_cancel_left, Nat.mul_one]

theorem not_meets_before (positive : 0 < depth) (before : depth < meetingDepth tail period) :
    tree.visit key depth ≠ tree.visit key (anchorDepth depth) := by
  intro same
  obtain ⟨_, rounds⟩ := (rho.meets_iff positive).mp same
  have atMost := Nat.pow_log_le_self 2 (Nat.ne_of_gt positive)
  have below := Nat.lt_pow_succ_log_self (by omega : 1 < 2) depth
  rw [anchorDepth] at rounds
  have oneRound := Nat.le_of_dvd (by omega) rounds
  have enough : max (tail + 1) period ≤ 2 ^ Nat.log 2 depth := by omega
  have atLeast := Nat.pow_le_pow_right (by omega : 0 < 2) (Nat.clog_le_of_le_pow enough)
  rw [meetingDepth] at before
  omega

theorem meetingDepth_le : meetingDepth tail period + 2 ≤ 3 * (tail + period) := by
  have positive := rho.positive
  rw [meetingDepth]
  by_cases one : max (tail + 1) period ≤ 1
  · rw [Nat.clog_of_right_le_one one]
    omega
  · have half := Nat.pow_pred_clog_lt_self (by omega : 1 < 2) (by omega : 1 < max (tail + 1) period)
    have double : 2 ^ Nat.clog 2 (max (tail + 1) period) =
        2 ^ (Nat.clog 2 (max (tail + 1) period)).pred * 2 := by
      rw [← Nat.pow_succ, Nat.succ_pred]
      exact Nat.ne_of_gt (Nat.clog_pos (by omega) (by omega))
    omega

end

end Rho

end ParentMap

end Library
