import Mathlib.Data.List.Induction

/-!
# Radix trees of tables

A radix tree is given by its `child` function: `child table index` is the table
that the entry `index` of `table` leads to, if that entry is present. A path of
indices is walked from the root, one entry at a time.

The tree is `Separated` when no table lies on two paths. Two facts about such
trees carry the page-table proofs: a walk depends on nothing but the entries of
reachable tables, and linking a fresh empty table below one missing entry adds
exactly one path.
-/

namespace BeaverOS.RadixTree

universe u v

variable {Table : Type u} {Index : Type v}

/-- Follow a path of indices from `table`. -/
def walk (child : Table → Index → Option Table) :
    Table → List Index → Option Table
  | table, [] => some table
  | table, index :: path =>
      (child table index).bind fun next => walk child next path

/-- No table is met on two different paths of at most `depth` indices. -/
def Separated (child : Table → Index → Option Table)
    (root : Table) (depth : Nat) : Prop :=
  ∀ left right table,
    left.length ≤ depth →
    right.length ≤ depth →
    walk child root left = some table →
    walk child root right = some table →
    left = right

/-- `table` is met on some path of at most `depth` indices. -/
def Reached (child : Table → Index → Option Table)
    (root : Table) (depth : Nat) (table : Table) : Prop :=
  ∃ path, path.length ≤ depth ∧ walk child root path = some table

section Walks

variable {child child' : Table → Index → Option Table}
  {root : Table} {depth : Nat}

@[simp]
theorem walk_nil (table : Table) : walk child table [] = some table := rfl

theorem walk_cons_of_child {table next : Table} {index : Index}
    {path : List Index} (linked : child table index = some next) :
    walk child table (index :: path) = walk child next path := by
  rw [walk, linked, Option.bind_some]

theorem walk_append (table : Table) (initial suffix : List Index) :
    walk child table (initial ++ suffix) =
      (walk child table initial).bind
        fun next => walk child next suffix := by
  induction initial generalizing table with
  | nil => rfl
  | cons index initial inductionHypothesis =>
      simp only [List.cons_append, walk, Option.bind_assoc]
      congr 1
      funext next
      exact inductionHypothesis next

theorem walk_snoc (table : Table) (path : List Index) (index : Index) :
    walk child table (path ++ [index]) =
      (walk child table path).bind fun last => child last index := by
  rw [walk_append]
  congr 1
  funext last
  simp [walk]

theorem walk_snoc_of_walk {path : List Index} {table : Table}
    (reached : walk child root path = some table) (index : Index) :
    walk child root (path ++ [index]) = child table index := by
  rw [walk_snoc, reached]
  rfl

/-- The initial part of a complete walk is complete. -/
theorem exists_walk_of_append {initial suffix : List Index} {table : Table}
    (reached : walk child root (initial ++ suffix) = some table) :
    ∃ middle, walk child root initial = some middle := by
  rw [walk_append] at reached
  obtain ⟨middle, found, _⟩ := Option.bind_eq_some_iff.mp reached
  exact ⟨middle, found⟩

/-- A walk reads only the entries of the tables it meets. -/
theorem walk_congr
    (same :
      ∀ path table index,
        path.length < depth →
        walk child root path = some table →
        child' table index = child table index) :
    ∀ path : List Index, path.length ≤ depth →
      walk child' root path = walk child root path := by
  intro path
  induction path using List.reverseRecOn with
  | nil =>
      intro _
      rfl
  | append_singleton path index inductionHypothesis =>
      intro short
      simp only [List.length_append, List.length_singleton] at short
      rw [walk_snoc, walk_snoc, inductionHypothesis (by omega)]
      cases found : walk child root path with
      | none => rfl
      | some table => exact same path table index (by omega) found

theorem Separated.congr
    (separated : Separated child root depth)
    (same :
      ∀ path : List Index, path.length ≤ depth →
        walk child' root path = walk child root path) :
    Separated child' root depth := by
  intro left right table leftShort rightShort leftWalk rightWalk
  rw [same left leftShort] at leftWalk
  rw [same right rightShort] at rightWalk
  exact separated left right table leftShort rightShort leftWalk rightWalk

/-- Where every entry leads to the place that its own place and index give,
each table is met at its place alone. -/
theorem place_eq_of_walk {place : Table → List Index}
    (start : place root = [])
    (next :
      ∀ table index below,
        (place table).length < depth →
        child table index = some below →
        place below = place table ++ [index])
    {table : Table} :
    ∀ path : List Index, path.length ≤ depth →
      walk child root path = some table → place table = path := by
  intro path
  induction path using List.reverseRecOn generalizing table with
  | nil =>
      intro _ reached
      cases reached
      exact start
  | append_singleton path index inductionHypothesis =>
      intro short reached
      simp only [List.length_append, List.length_singleton] at short
      rw [walk_snoc] at reached
      obtain ⟨parent, before, linked⟩ := Option.bind_eq_some_iff.mp reached
      have parentPlace := inductionHypothesis (by omega) before
      rw [next parent index table (by rw [parentPlace]; omega) linked,
        parentPlace]

theorem separated_of_place {place : Table → List Index}
    (start : place root = [])
    (next :
      ∀ table index below,
        (place table).length < depth →
        child table index = some below →
        place below = place table ++ [index]) :
    Separated child root depth := by
  intro left right table leftShort rightShort leftWalk rightWalk
  rw [← place_eq_of_walk start next left leftShort leftWalk,
    ← place_eq_of_walk start next right rightShort rightWalk]

end Walks

/-! ## Linking a fresh table -/

section Link

variable {child child' : Table → Index → Option Table}
  {root : Table} {depth : Nat}

/-- `child'` is `child` with the fresh empty table `fresh` linked below the
missing entry `index` of `parent`. -/
structure Links (child child' : Table → Index → Option Table)
    (root : Table) (depth : Nat) (path : List Index)
    (parent : Table) (index : Index) (fresh : Table) : Prop where
  short : path.length < depth
  reached : walk child root path = some parent
  missing : child parent index = none
  linked : child' parent index = some fresh
  unreached :
    ∀ other, other.length ≤ depth → walk child root other ≠ some fresh
  empty : ∀ below, child' fresh below = none
  same :
    ∀ other table below,
      other.length < depth →
      walk child root other = some table →
      ¬ (table = parent ∧ below = index) →
      child' table below = child table below

variable {path : List Index} {parent fresh : Table} {index : Index}

/-- Linking adds one path and changes no other. -/
theorem Links.walk_eq [DecidableEq Index]
    (separated : Separated child root depth)
    (link : Links child child' root depth path parent index fresh) :
    ∀ other : List Index, other.length ≤ depth →
      walk child' root other =
        if other = path ++ [index] then some fresh
        else walk child root other := by
  intro other
  induction other using List.reverseRecOn with
  | nil =>
      intro _
      simp
  | append_singleton other last inductionHypothesis =>
      intro short
      simp only [List.length_append, List.length_singleton] at short
      rw [walk_snoc, inductionHypothesis (by omega)]
      by_cases atLink : other = path ++ [index]
      · -- below the fresh table there is nothing, before and after
        have longer : other ++ [last] ≠ path ++ [index] := by
          intro equal
          have lengths := congrArg List.length equal
          simp [atLink] at lengths
        have before : walk child root (other ++ [last]) = none := by
          rw [walk_snoc, atLink, walk_snoc_of_walk link.reached,
            link.missing]
          rfl
        rw [if_pos atLink, if_neg longer, before]
        exact link.empty last
      · rw [if_neg atLink, walk_snoc]
        cases found : walk child root other with
        | none =>
            have elsewhere : other ++ [last] ≠ path ++ [index] := by
              intro equal
              have parents := (List.append_inj' equal rfl).1
              rw [parents, link.reached] at found
              cases found
            rw [if_neg elsewhere]
            rfl
        | some table =>
            by_cases here : table = parent ∧ last = index
            · obtain ⟨rfl, rfl⟩ := here
              have samePath : other = path :=
                separated other path table (by omega)
                  (Nat.le_of_lt link.short) found link.reached
              rw [if_pos (by rw [samePath])]
              exact link.linked
            · have elsewhere : other ++ [last] ≠ path ++ [index] := by
                intro equal
                obtain ⟨parents, lasts⟩ := List.append_inj' equal rfl
                rw [parents, link.reached] at found
                cases found
                exact here ⟨rfl, by simpa using lasts⟩
              rw [if_neg elsewhere]
              exact link.same other table last (by omega) found here

/-- Linking a fresh table keeps the tree separated. -/
theorem Links.separated [DecidableEq Index]
    (separated : Separated child root depth)
    (link : Links child child' root depth path parent index fresh) :
    Separated child' root depth := by
  intro left right table leftShort rightShort leftWalk rightWalk
  rw [link.walk_eq separated left leftShort] at leftWalk
  rw [link.walk_eq separated right rightShort] at rightWalk
  by_cases leftNew : left = path ++ [index]
  · by_cases rightNew : right = path ++ [index]
    · rw [leftNew, rightNew]
    · rw [if_pos leftNew] at leftWalk
      rw [if_neg rightNew] at rightWalk
      cases leftWalk
      exact absurd rightWalk (link.unreached right rightShort)
  · by_cases rightNew : right = path ++ [index]
    · rw [if_neg leftNew] at leftWalk
      rw [if_pos rightNew] at rightWalk
      cases rightWalk
      exact absurd leftWalk (link.unreached left leftShort)
    · rw [if_neg leftNew] at leftWalk
      rw [if_neg rightNew] at rightWalk
      exact separated left right table leftShort rightShort leftWalk
        rightWalk

end Link

end BeaverOS.RadixTree
