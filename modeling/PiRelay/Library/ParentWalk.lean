import Mathlib.Data.List.Chain
import Mathlib.Data.List.Nodup
import Mathlib.Data.List.Perm.Subperm

/-! Walking up a tree whose nodes name their parent by a key. The walk is bounded by
fuel; in a tree where ranks fall towards the root, the number of nodes is fuel
enough, and the walk finds the whole path. -/
namespace Library

open List

universe u v w

structure ParentMap (Key : Type u) (Node : Type v) where
  lookup : Key → Option Node
  parent : Node → Option Key

namespace ParentMap

variable {Key : Type u} {Node : Type v} {tree other : ParentMap Key Node}

def walk (tree : ParentMap Key Node) : Nat → Option Key → List Node
  | 0, _ => []
  | _ + 1, none => []
  | fuel + 1, some key =>
    match tree.lookup key with
    | none => []
    | some node => node :: tree.walk fuel (tree.parent node)

/-- The path from a key up to a root. -/
inductive Ascends (tree : ParentMap Key Node) : Option Key → List Node → Prop where
  | root : Ascends tree none []
  | node {key : Key} {node : Node} {rest : List Node} (found : tree.lookup key = some node)
      (above : Ascends tree (tree.parent node) rest) : Ascends tree (some key) (node :: rest)

/-- The path from a key up to a root, or up to a node whose parent is missing. -/
inductive Climbs (tree : ParentMap Key Node) : Option Key → List Node → Prop where
  | root : Climbs tree none []
  | missing {key : Key} (lost : tree.lookup key = none) : Climbs tree (some key) []
  | node {key : Key} {node : Node} {rest : List Node} (found : tree.lookup key = some node)
      (above : Climbs tree (tree.parent node) rest) : Climbs tree (some key) (node :: rest)

namespace Climbs

variable {key : Option Key} {path : List Node}

theorem walk_eq (climbs : tree.Climbs key path) {fuel : Nat} (enough : path.length ≤ fuel) :
    tree.walk fuel key = path := by
  induction climbs generalizing fuel with
  | root => cases fuel <;> rfl
  | missing lost =>
    cases fuel with
    | zero => rfl
    | succ => rw [walk, lost]
  | @node key node rest found above ih =>
    obtain ⟨less, rfl⟩ : ∃ less, fuel = less + 1 :=
      Nat.exists_eq_add_one.mpr (Nat.lt_of_lt_of_le (Nat.succ_pos _) enough)
    rw [walk, found]
    simp only
    rw [ih (Nat.le_of_succ_le_succ enough)]

theorem of_walk {fuel : Nat} (stopped : (tree.walk fuel key).length < fuel) :
    tree.Climbs key (tree.walk fuel key) := by
  induction fuel generalizing key with
  | zero => cases stopped
  | succ _ ih =>
    cases key with
    | none => exact .root
    | some key =>
      rw [walk] at stopped ⊢
      cases found : tree.lookup key with
      | none => exact .missing found
      | some node =>
        rw [found] at stopped
        exact .node found (ih (Nat.lt_of_succ_lt_succ stopped))

theorem unique {other : List Node} (climbs : tree.Climbs key path)
    (again : tree.Climbs key other) : path = other := by
  induction climbs generalizing other with
  | root => cases again; rfl
  | missing lost =>
    cases again with
    | missing => rfl
    | node found => rw [lost] at found; cases found
  | node found _ ih =>
    cases again with
    | missing lost => rw [lost] at found; cases found
    | node foundAgain aboveAgain =>
      cases found.symm.trans foundAgain
      rw [ih aboveAgain]

theorem of_append {before after : List Node} {node : Node}
    (climbs : tree.Climbs key (before ++ node :: after)) :
    ∃ place, tree.lookup place = some node ∧ tree.Climbs (tree.parent node) after := by
  induction before generalizing key with
  | nil =>
    cases climbs with
    | node found above => exact ⟨_, found, above⟩
  | cons _ _ ih =>
    cases climbs with
    | node _ above => exact ih above

section

variable (climbs : tree.Climbs key path)
include climbs

theorem nodup : path.Nodup := by
  induction climbs with
  | root | missing => exact nodup_nil
  | @node key node rest found above ih =>
    rw [nodup_cons]
    refine ⟨?_, ih⟩
    intro again
    obtain ⟨_, _, rfl⟩ := append_of_mem again
    obtain ⟨_, _, shorter⟩ := above.of_append
    have same := congrArg List.length (above.unique shorter)
    rw [length_append, length_cons] at same
    omega

theorem length_le {nodes : List Node} (listed : ∀ node ∈ path, node ∈ nodes) :
    path.length ≤ nodes.length :=
  (climbs.nodup.subperm listed).length_le

section

variable {name : Node → Key} (named : ∀ key node, tree.lookup key = some node → name node = key)
include named

theorem lookup_of_mem : ∀ node ∈ path, tree.lookup (name node) = some node := by
  induction climbs with
  | root | missing => nofun
  | node found _ ih =>
    intro node mem
    rcases mem_cons.mp mem with rfl | later
    · rw [named _ _ found]
      exact found
    · exact ih node later

theorem names_nodup : (path.map name).Nodup := by
  have found := climbs.lookup_of_mem named
  apply Nodup.map_on _ climbs.nodup
  intro node mem other otherMem same
  exact Option.some.inj ((found node mem).symm.trans (same ▸ found other otherMem))

end

theorem mem_of_named {named : Key} {target : Node}
    (onPath : key = some named ∨ ∃ node ∈ path, tree.parent node = some named)
    (names : tree.lookup named = some target) : target ∈ path := by
  induction climbs with
  | root => rcases onPath with isStart | ⟨node, mem, _⟩ <;> contradiction
  | missing lost =>
    rcases onPath with isStart | ⟨node, mem, _⟩
    · cases isStart
      rw [lost] at names
      cases names
    · cases mem
  | @node key node rest found above ih =>
    rcases onPath with isStart | ⟨child, mem, isParent⟩
    · cases isStart
      cases names.symm.trans found
      exact (.head _)
    · apply mem_cons_of_mem
      rcases mem_cons.mp mem with rfl | later
      · exact ih (.inl isParent)
      · exact ih (.inr ⟨child, later, isParent⟩)

/-- A path survives a change of the tree that leaves the keys along it alone. -/
theorem transfer (sameParent : other.parent = tree.parent)
    (agrees : ∀ named, key = some named ∨ (∃ node ∈ path, tree.parent node = some named) →
      other.lookup named = tree.lookup named) : other.Climbs key path := by
  induction climbs with
  | root => exact .root
  | missing lost => exact .missing ((agrees _ (.inl rfl)).trans lost)
  | @node key node rest found above ih =>
    apply Climbs.node ((agrees _ (.inl rfl)).trans found)
    rw [sameParent]
    apply ih
    intro named onPath
    apply agrees
    right
    rcases onPath with isParent | ⟨later, mem, isParent⟩
    · exact ⟨node, .head _, isParent⟩
    · exact ⟨later, .tail _ mem, isParent⟩

end

end Climbs

theorem walk_map {Other : Type w} {mapped : ParentMap Key Other} {change : Node → Other}
    (found : ∀ key, mapped.lookup key = (tree.lookup key).map change)
    (sameParent : ∀ key node, tree.lookup key = some node →
      mapped.parent (change node) = tree.parent node)
    (fuel : Nat) (key : Option Key) : mapped.walk fuel key = (tree.walk fuel key).map change := by
  induction fuel generalizing key with
  | zero => rfl
  | succ _ ih =>
    cases key with
    | none => rfl
    | some key =>
      rw [walk, walk, found]
      cases hNode : tree.lookup key with
      | none => rfl
      | some node =>
        simp only [Option.map_some, map_cons]
        rw [sameParent key node hNode, ih]

namespace Ascends

variable {key : Option Key} {path : List Node}

theorem climbs (ascends : tree.Ascends key path) : tree.Climbs key path := by
  induction ascends with
  | root => exact .root
  | node found _ ih => exact .node found ih

theorem walk_eq (ascends : tree.Ascends key path) {fuel : Nat} (enough : path.length ≤ fuel) :
    tree.walk fuel key = path :=
  ascends.climbs.walk_eq enough

theorem of_climbs (climbs : tree.Climbs key path)
    (known : ∀ start ∈ key, ∃ node, tree.lookup start = some node)
    (parents : ∀ own node, tree.lookup own = some node → ∀ parentKey ∈ tree.parent node,
      ∃ above, tree.lookup parentKey = some above) : tree.Ascends key path := by
  induction climbs with
  | root => exact .root
  | missing lost =>
    obtain ⟨node, found⟩ := known _ rfl
    rw [lost] at found
    cases found
  | node found _ ih => exact .node found (ih (parents _ _ found))

theorem transfer (ascends : tree.Ascends key path) (sameParent : other.parent = tree.parent)
    (kept : ∀ key node, tree.lookup key = some node → other.lookup key = some node) :
    other.Ascends key path := by
  induction ascends with
  | root => exact .root
  | node found _ ih =>
    apply node (kept _ _ found)
    rw [sameParent]
    exact ih

end Ascends

/-- A node of the tree names the other one as its parent. -/
def Links (tree : ParentMap Key Node) (node above : Node) : Prop :=
  (∃ own, tree.lookup own = some node) ∧
    ∃ key, tree.parent node = some key ∧ tree.lookup key = some above

/-- No node is above itself. -/
def Acyclic (tree : ParentMap Key Node) : Prop := ∀ node, ¬ Relation.TransGen tree.Links node node

theorem walk_length_le (tree : ParentMap Key Node) (fuel : Nat) (key : Option Key) :
    (tree.walk fuel key).length ≤ fuel := by
  induction fuel generalizing key with
  | zero => exact Nat.le_refl _
  | succ _ ih =>
    cases key with
    | none => exact Nat.zero_le _
    | some key =>
      rw [walk]
      cases tree.lookup key with
      | none => exact Nat.zero_le _
      | some => exact Nat.succ_le_succ (ih _)

variable {node : Node}

theorem mem_walk {fuel : Nat} {key : Option Key} (mem : node ∈ tree.walk fuel key) :
    ∃ own, tree.lookup own = some node := by
  induction fuel generalizing key with
  | zero => cases mem
  | succ _ ih =>
    cases key with
    | none => cases mem
    | some key =>
      rw [walk] at mem
      cases found : tree.lookup key with
      | none => simp [found] at mem
      | some =>
        rw [found] at mem
        rcases mem_cons.mp mem with rfl | later
        · exact ⟨key, found⟩
        · exact ih later

/-- Each node of a walk is linked to the next one. -/
theorem walk_links (tree : ParentMap Key Node) (fuel : Nat) (key : Option Key) :
    (tree.walk fuel key).IsChain tree.Links := by
  induction fuel generalizing key with
  | zero => exact List.IsChain.nil
  | succ fuel ih =>
    cases key with
    | none => exact List.IsChain.nil
    | some key =>
      rw [walk]
      cases found : tree.lookup key with
      | none => exact List.IsChain.nil
      | some node =>
        apply isChain_cons.mpr
        constructor
        · intro above isHead
          refine ⟨⟨key, found⟩, ?_⟩
          cases fuel with
          | zero => cases isHead
          | succ =>
            cases hParent : tree.parent node with
            | none => simp [hParent, walk] at isHead
            | some parentKey =>
              refine ⟨parentKey, rfl, ?_⟩
              rw [hParent, walk] at isHead
              cases foundAbove : tree.lookup parentKey with
              | none => simp [foundAbove] at isHead
              | some => simpa [foundAbove] using isHead
        · exact ih (tree.parent node)

theorem Acyclic.walk_nodup (acyclic : tree.Acyclic) (fuel : Nat) (key : Option Key) :
    (tree.walk fuel key).Nodup := by
  have above : (tree.walk fuel key).Pairwise (Relation.TransGen tree.Links) :=
    ((tree.walk_links fuel key).imp fun _ _ => Relation.TransGen.single).pairwise
  apply above.imp
  intro node other links same
  subst same
  exact acyclic node links

theorem Acyclic.climbs (acyclic : tree.Acyclic) {nodes : List Node}
    (listed : ∀ key node, tree.lookup key = some node → node ∈ nodes) (key : Option Key) :
    tree.Climbs key (tree.walk nodes.length key) ∧
      (tree.walk nodes.length key).length ≤ nodes.length := by
  have within : (tree.walk (nodes.length + 1) key).length ≤ nodes.length := by
    apply (List.Nodup.subperm (acyclic.walk_nodup _ key) _).length_le
    intro node mem
    obtain ⟨own, found⟩ := mem_walk mem
    exact listed own node found
  have climbs := Climbs.of_walk (Nat.lt_succ_of_le within)
  rw [climbs.walk_eq within]
  exact ⟨climbs, within⟩

theorem Acyclic.walk_parent_lt (acyclic : tree.Acyclic) {nodes : List Node}
    (listed : ∀ key node, tree.lookup key = some node → node ∈ nodes) {key : Key}
    (found : tree.lookup key = some node) :
    (tree.walk nodes.length (tree.parent node)).length <
      (tree.walk nodes.length (some key)).length := by
  have below := (acyclic.climbs listed (some key)).1
  have above := (acyclic.climbs listed (tree.parent node)).1
  rw [below.unique (.node found above)]
  exact Nat.lt_succ_self _

theorem Climbs.shorter_above {above : Node} {path : List Node}
    (links : Relation.TransGen tree.Links node above) (climbs : tree.Climbs (tree.parent node) path) :
    ∃ rest, tree.Climbs (tree.parent above) rest ∧ rest.length < path.length := by
  have step : ∀ {node above : Node} {path : List Node}, tree.Links node above →
      tree.Climbs (tree.parent node) path →
      ∃ rest, tree.Climbs (tree.parent above) rest ∧ rest.length < path.length := by
    intro node above path link climbs
    obtain ⟨-, _, isParent, found⟩ := link
    rw [isParent] at climbs
    cases climbs with
    | missing lost => rw [lost] at found; cases found
    | node foundAgain rest =>
      cases foundAgain.symm.trans found
      exact ⟨_, rest, Nat.lt_succ_self _⟩
  induction links with
  | single link => exact step link climbs
  | tail _ link ih =>
    obtain ⟨_, climbsMiddle, shorter⟩ := ih
    obtain ⟨rest, climbsRest, shortest⟩ := step link climbsMiddle
    exact ⟨rest, climbsRest, Nat.lt_trans shortest shorter⟩

theorem acyclic_of_climbs
    (ends : ∀ key node, tree.lookup key = some node → ∃ path, tree.Climbs (some key) path) :
    tree.Acyclic := by
  intro node links
  obtain ⟨own, found⟩ : ∃ own, tree.lookup own = some node := by
    obtain ⟨_, link, -⟩ := Relation.TransGen.head'_iff.mp links
    exact link.1
  obtain ⟨path, climbs⟩ := ends own node found
  cases climbs with
  | missing lost => rw [lost] at found; cases found
  | node foundAgain rest =>
    cases foundAgain.symm.trans found
    obtain ⟨_, climbsShorter, less⟩ := Climbs.shorter_above links rest
    rw [rest.unique climbsShorter] at less
    exact Nat.lt_irrefl _ less

/-- The nodes of a tree: every parent that is named exists, and is of lower rank. -/
structure Ranked (tree : ParentMap Key Node) (nodes : List Node) (rank : Node → Nat) : Prop where
  listed : ∀ key node, tree.lookup key = some node → node ∈ nodes
  parents : ∀ node ∈ nodes, ∀ key, tree.parent node = some key →
    ∃ above, tree.lookup key = some above ∧ rank above < rank node

namespace Ranked

variable {nodes : List Node} {rank : Node → Nat}

/-- Where ranks fall towards the roots, every key has a path to one. -/
theorem exists_path (ranked : tree.Ranked nodes rank) {key : Key} {node : Node}
    (found : tree.lookup key = some node) :
    ∃ path, tree.Ascends (some key) path ∧ path.Nodup ∧
      (∀ visited ∈ path, visited ∈ nodes ∧ rank visited ≤ rank node) := by
  induction hRank : rank node using Nat.strongRecOn generalizing key node with
  | ind _ ih =>
    subst hRank
    have mem := ranked.listed key node found
    cases hParent : tree.parent node with
    | none =>
      refine ⟨[node], .node found (hParent ▸ .root), nodup_singleton _, ?_⟩
      intro visited hVisited
      rw [mem_singleton.mp hVisited]
      exact ⟨mem, Nat.le_refl _⟩
    | some parentKey =>
      obtain ⟨above, hAbove, lower⟩ := ranked.parents node mem parentKey hParent
      obtain ⟨path, ascends, nodup, visits⟩ := ih (rank above) lower hAbove rfl
      refine ⟨node :: path, .node found (hParent ▸ ascends), nodup_cons.mpr ⟨?_, nodup⟩, ?_⟩
      · intro again
        exact absurd (visits node again).2 (Nat.not_le.mpr lower)
      · intro visited hVisited
        rcases mem_cons.mp hVisited with rfl | later
        · exact ⟨mem, Nat.le_refl _⟩
        · obtain ⟨listed, atMost⟩ := visits visited later
          exact ⟨listed, Nat.le_trans atMost (Nat.le_of_lt lower)⟩

theorem walk_ascends (ranked : tree.Ranked nodes rank) {key : Option Key}
    (known : ∀ start ∈ key, ∃ node, tree.lookup start = some node) :
    tree.Ascends key (tree.walk nodes.length key) ∧
      (tree.walk nodes.length key).length ≤ nodes.length := by
  cases key with
  | none =>
    have nothing : tree.walk nodes.length none = [] := by cases nodes.length <;> rfl
    rw [nothing]
    exact ⟨.root, Nat.zero_le _⟩
  | some start =>
    obtain ⟨node, found⟩ := known start rfl
    obtain ⟨path, ascends, nodup, visits⟩ := ranked.exists_path found
    have short : path.length ≤ nodes.length :=
      (nodup.subperm fun visited hVisited => (visits visited hVisited).1).length_le
    rw [ascends.walk_eq short]
    exact ⟨ascends, short⟩

end Ranked

end ParentMap

end Library
