import Mathlib.Data.Set.Insert

/-!
# Caches of translations

A processor that translates pages with tables in memory may keep any translation
that it has read there, and may drop it again. It prefers what it keeps to the
tables, so a change of the tables makes kept translations stale until they are
invalidated.
-/

namespace BeaverOS.TranslationCache

variable {Page Target : Type}

/-- The translations that are kept. -/
abbrev Cache (Page Target : Type) := Page → Option Target

/-- What a processor does with its cache of its own accord. -/
inductive Activity (Page : Type) where
  | fill (page : Page)
  | evict (page : Page)

/-- The translation that an access uses. -/
def lookup (tables : Page → Option Target) (cache : Cache Page Target)
    (page : Page) : Option Target :=
  (cache page).or (tables page)

/-- Kept translations are those of the tables, but for stale pages. -/
def Fresh (tables : Page → Option Target) (stale : Set Page)
    (cache : Cache Page Target) : Prop :=
  ∀ page target, page ∉ stale → cache page = some target →
    tables page = some target

variable {tables tables' : Page → Option Target} {stale changed : Set Page}
  {cache : Cache Page Target} {page : Page}

theorem fresh_empty : Fresh tables stale fun _ => none :=
  fun _ _ _ kept => nomatch kept

/-- What is kept of a page that is not stale makes no difference. -/
theorem Fresh.lookup_eq (fresh : Fresh tables stale cache)
    (notStale : page ∉ stale) : lookup tables cache page = tables page := by
  rw [lookup]
  cases kept : cache page with
  | none => rfl
  | some target => exact (fresh page target notStale kept).symm

/-- The tables change. -/
theorem Fresh.change (fresh : Fresh tables stale cache)
    (same : ∀ page, page ∉ changed → tables' page = tables page) :
    Fresh tables' (stale ∪ changed) cache := by
  intro page target notStale kept
  rw [same page fun isChanged => notStale (Or.inr isChanged)]
  exact fresh page target (fun isStale => notStale (Or.inl isStale)) kept

variable [DecidableEq Page]

/-- Drop what is kept of a page. -/
def invalidate (cache : Cache Page Target) (page : Page) :
    Cache Page Target :=
  Function.update cache page none

def Activity.apply (tables : Page → Option Target)
    (cache : Cache Page Target) : Activity Page → Cache Page Target
  | .fill page => Function.update cache page (tables page)
  | .evict page => invalidate cache page

/-- Several activities, one after another. -/
def refresh (tables : Page → Option Target) (cache : Cache Page Target)
    (activities : List (Activity Page)) : Cache Page Target :=
  activities.foldl (Activity.apply tables) cache

theorem Fresh.invalidate (fresh : Fresh tables stale cache) (page : Page) :
    Fresh tables (stale \ {page}) (invalidate cache page) := by
  intro other target notStale kept
  by_cases same : other = page
  · rw [TranslationCache.invalidate, same, Function.update_self] at kept
    cases kept
  · rw [TranslationCache.invalidate, Function.update_of_ne same] at kept
    exact fresh other target (fun isStale => notStale ⟨isStale, same⟩) kept

/-- The processor keeps nothing but what the tables say. -/
theorem Fresh.apply (fresh : Fresh tables stale cache)
    (activity : Activity Page) :
    Fresh tables stale (activity.apply tables cache) := by
  cases activity with
  | fill page =>
      intro other target notStale kept
      rw [Activity.apply] at kept
      by_cases same : other = page
      · rw [same, Function.update_self] at kept
        rw [same, kept]
      · rw [Function.update_of_ne same] at kept
        exact fresh other target notStale kept
  | evict page =>
      intro other target notStale kept
      exact fresh.invalidate page other target (fun both => notStale both.1)
        kept

theorem Fresh.refresh (fresh : Fresh tables stale cache)
    (activities : List (Activity Page)) :
    Fresh tables stale (refresh tables cache activities) := by
  induction activities generalizing cache with
  | nil => exact fresh
  | cons activity activities inductionHypothesis =>
      exact inductionHypothesis (fresh.apply activity)

/-- A page goes stale, and is invalidated. -/
theorem Fresh.invalidate_changed
    (fresh : Fresh tables (∅ ∪ {page}) cache) :
    Fresh tables ∅ (TranslationCache.invalidate cache page) := by
  intro other target _ kept
  refine fresh.invalidate page other target ?_ kept
  rintro ⟨isStale, different⟩
  exact different (isStale.resolve_left (Set.notMem_empty _))

end BeaverOS.TranslationCache
