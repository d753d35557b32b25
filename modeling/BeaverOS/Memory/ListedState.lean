import BeaverOS.Memory.MapperState

/-!
# States given by lists

Kernel states whose page tables are given by two finite lists: the frames of
the tables with their paths, and the entries that link them.
-/

namespace BeaverOS.ListedState

open BeaverOS.ByteMemory
open BeaverOS.BlockChain
open BeaverOS.RadixTree
open BeaverOS.Paging
open BeaverOS.Window
open BeaverOS.FrameAllocator
open BeaverOS.PageTree
open BeaverOS.MapperState

/-- The 64-bit words of memory: at the listed positions the entries that lead
to the listed frames, and elsewhere `rest`. -/
def listedWord (links : List (Nat × Nat)) (rest : Nat → Word)
    (position : Nat) : Word :=
  match links.lookup position with
  | some frame => BitVec.ofNat 64 (4096 * frame + 3)
  | none => rest position

/-- The path of a table, with an overlong one for what is no table. -/
def listedPlace (paths : List (Nat × List Index)) (table : Nat) :
    List Index :=
  if table % 4096 = 0 then
    (paths.lookup (table / 4096)).getD [0, 0, 0, 0]
  else
    [0, 0, 0, 0]

/-- The links connect the tables as their paths say, and the upper tables have
no other entries. -/
structure Lists (root : Nat) (paths : List (Nat × List Index))
    (links : List (Nat × Nat)) (rest : Nat → Word) : Prop where
  start : paths.lookup root = some []
  small : ∀ path ∈ paths, path.1 < 2 ^ 40
  linked :
    ∀ link ∈ links, (paths.lookup link.2).isSome ∧
      (paths.lookup (link.1 / 512)).map (· ++ [Fin.ofNat 512 link.1]) =
        paths.lookup link.2
  empty :
    ∀ path ∈ paths, path.2.length < 3 →
      ∀ index : Index, ¬ Has (rest (512 * path.1 + index.val)) pagePBit

/-- The bits of an entry that is a frame number and flags. -/
theorem has_ofNat_iff {frame flags : Nat} {bit : Nat} (low : bit < 12) :
    Has (BitVec.ofNat 64 (4096 * frame + flags)) (1#64 <<< bit) ↔
      flags / 2 ^ bit % 2 = 1 := by
  have same : (4096 * frame + flags) / 2 ^ bit % 2 = flags / 2 ^ bit % 2 := by
    have split : 4096 * frame = 2 ^ bit * (2 * (2 ^ (11 - bit) * frame)) := by
      have powers : 2 ^ bit * (2 * 2 ^ (11 - bit)) = 4096 := by
        rw [← Nat.pow_succ', ← Nat.pow_add,
          show bit + (11 - bit).succ = 12 by omega]
      rw [← powers]
      simp only [Nat.mul_assoc]
    rw [split, Nat.mul_add_div (Nat.two_pow_pos bit), Nat.mul_add_mod]
  have place : (BitVec.ofNat 64 (4096 * frame + flags)).getLsbD bit =
      decide (flags / 2 ^ bit % 2 = 1) := by
    rw [BitVec.getLsbD_ofNat, decide_eq_true (by omega : bit < 64),
      Bool.true_and, Nat.testBit_eq_decide_div_mod_eq, same]
  rw [Has, ← BitVec.twoPow_eq, BitVec.and_twoPow, place]
  by_cases set : flags / 2 ^ bit % 2 = 1
  · rw [decide_eq_true set, if_pos rfl]
    refine iff_of_true ?_ set
    intro zero
    have value := congrArg BitVec.toNat zero
    rw [BitVec.toNat_twoPow_of_lt (by omega)] at value
    exact absurd value (Nat.two_pow_pos bit).ne'
  · rw [decide_eq_false set, if_neg (by decide)]
    exact iff_of_false (fun nonzero => nonzero rfl) set

section Listed

variable {root : Nat} {paths : List (Nat × List Index)}
  {links : List (Nat × Nat)} {rest : Nat → Word} {frame next : Nat}
  {index : Index} {table : Nat}

theorem readEntry_listed :
    readEntry (ofWords (listedWord links rest)) (4096 * frame) index =
      listedWord links rest (512 * frame + index.val) := by
  have position :
      entryAddress (4096 * frame) index = 8 * (512 * frame + index.val) := by
    simp only [entryAddress]
    omega
  rw [readEntry, position]
  exact readWord_ofWords _ _

theorem mem_of_lookup {β : Type} {list : List (Nat × β)} {key : Nat}
    {value : β} (found : list.lookup key = some value) :
    (key, value) ∈ list := by
  obtain ⟨before, after, rfl, _⟩ := List.lookup_eq_some_iff.mp found
  exact List.mem_append_right before List.mem_cons_self

theorem Lists.exists_path (lists : Lists root paths links rest)
    {link : Nat × Nat} (member : link ∈ links) :
    ∃ path, paths.lookup (link.1 / 512) = some path ∧
      paths.lookup link.2 = some (path ++ [Fin.ofNat 512 link.1]) := by
  obtain ⟨listed, place⟩ := lists.linked link member
  obtain ⟨below, found⟩ := Option.isSome_iff_exists.mp listed
  rw [found] at place
  obtain ⟨path, above, rfl⟩ := Option.map_eq_some_iff.mp place
  exact ⟨path, above, found⟩

theorem child_listed (lists : Lists root paths links rest)
    (linked : links.lookup (512 * frame + index.val) = some next) :
    child (ofWords (listedWord links rest)) (4096 * frame) index =
      some (4096 * next) := by
  obtain ⟨path, _, place⟩ := lists.exists_path (mem_of_lookup linked)
  have small := lists.small _ (mem_of_lookup place)
  have word : readEntry (ofWords (listedWord links rest)) (4096 * frame)
      index = BitVec.ofNat 64 (4096 * next + 3) := by
    rw [readEntry_listed, listedWord, linked]
  have present : Has (BitVec.ofNat 64 (4096 * next + 3)) pagePBit :=
    (has_ofNat_iff (by decide)).mpr (by decide)
  have leads : (frameOf (BitVec.ofNat 64 (4096 * next + 3))).toNat =
      4096 * next := by
    rw [toNat_frameOf, BitVec.toNat_ofNat]
    omega
  rw [child, word, if_pos present, leads]

theorem listedPlace_mul (paths : List (Nat × List Index)) (frame : Nat) :
    listedPlace paths (4096 * frame) =
      (paths.lookup frame).getD [0, 0, 0, 0] := by
  rw [listedPlace, if_pos (Nat.mul_mod_right _ _),
    Nat.mul_div_cancel_left _ (by decide)]

theorem listedPlace_next (lists : Lists root paths links rest)
    (upper : (listedPlace paths table).length < 3) {below : Nat}
    (linked : child (ofWords (listedWord links rest)) table index =
      some below) :
    listedPlace paths below = listedPlace paths table ++ [index] := by
  have aligned : table % 4096 = 0 := by
    by_contra other
    rw [listedPlace, if_neg other] at upper
    exact absurd upper (by decide)
  obtain ⟨frame, rfl⟩ : ∃ frame, table = 4096 * frame :=
    ⟨table / 4096, by omega⟩
  rw [listedPlace_mul] at upper ⊢
  cases place : paths.lookup frame with
  | none =>
      rw [place] at upper
      exact absurd upper (by decide)
  | some path =>
      rw [place] at upper
      cases found : links.lookup (512 * frame + index.val) with
      | none =>
          have word : readEntry (ofWords (listedWord links rest))
              (4096 * frame) index = rest (512 * frame + index.val) := by
            rw [readEntry_listed, listedWord, found]
          rw [child, word, if_neg (lists.empty _ (mem_of_lookup place) upper
            index)] at linked
          cases linked
      | some next =>
          rw [child_listed lists found] at linked
          cases linked
          obtain ⟨path', above, here⟩ := lists.exists_path (mem_of_lookup found)
          have bound := index.isLt
          have frameEq : (512 * frame + index.val) / 512 = frame := by omega
          have indexEq : Fin.ofNat 512 (512 * frame + index.val) = index := by
            refine Fin.ext ?_
            simp only [Fin.ofNat]
            omega
          simp only [frameEq] at above
          rw [place] at above
          cases above
          simp only [indexEq] at here
          rw [listedPlace_mul, here]
          rfl

theorem listedPlace_root (lists : Lists root paths links rest) :
    listedPlace paths (4096 * root) = [] := by
  rw [listedPlace_mul, lists.start]
  rfl

/-- Every table is a listed one. -/
theorem lookup_of_walk (lists : Lists root paths links rest)
    (path : List Index) (short : path.length ≤ 3)
    (reached : walk (child (ofWords (listedWord links rest))) (4096 * root)
      path = some table) :
    table % 4096 = 0 ∧ paths.lookup (table / 4096) = some path := by
  have place := place_eq_of_walk (listedPlace_root lists)
    (fun _ _ _ upper linked => listedPlace_next lists upper linked) path short
    reached
  have shortPlace : (listedPlace paths table).length ≤ 3 := by
    rw [place]
    exact short
  have aligned : table % 4096 = 0 := by
    by_contra other
    rw [listedPlace, if_neg other] at shortPlace
    exact absurd shortPlace (by decide)
  rw [listedPlace, if_pos aligned] at place shortPlace
  cases found : paths.lookup (table / 4096) with
  | none =>
      rw [found] at shortPlace
      exact absurd shortPlace (by decide)
  | some other =>
      rw [found] at place
      exact ⟨aligned, congrArg some place⟩

theorem tree_listed (lists : Lists root paths links rest) :
    TableTree (ofWords (listedWord links rest)) (4096 * root) := by
  have small := lists.small _ (mem_of_lookup lists.start)
  refine ⟨Nat.mul_mod_right _ _, by omega, ?_⟩
  exact separated_of_place (listedPlace_root lists)
    (fun _ _ _ upper linked => listedPlace_next lists upper linked)

end Listed

end BeaverOS.ListedState
