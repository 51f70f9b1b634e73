/-!
Caches of bounded size. Every access takes the next moment of the cache's own clock, and when there
are too many entries the fifth of them that was accessed longest ago is dropped.
-/

namespace Stencil

/-- Counters of a cache. -/
structure Counters where
  hits : Nat := 0
  misses : Nat := 0
  evictions : Nat := 0
deriving Repr, DecidableEq

/-- What a cache tells about itself. -/
structure Stats where
  entries : Nat
  counters : Counters
deriving Repr, DecidableEq

/-- An entry of a cache. -/
structure Entry (κ α : Type) where
  key : κ
  value : α
  /-- The moment of the latest access. -/
  accessed : Nat

/-- A cache of bounded size. -/
structure Cache (κ α : Type) where
  /-- How many entries it may hold; it holds at least one. -/
  capacity : Nat
  entries : List (Entry κ α) := []
  clock : Nat := 0
  counters : Counters := {}

namespace Cache

variable {κ α : Type} [BEq κ]

/-- The number of entries. -/
def size (cache : Cache κ α) : Nat := cache.entries.length

/-- The entry of a key. -/
def find? (cache : Cache κ α) (key : κ) : Option (Entry κ α) :=
  List.find? (·.key == key) cache.entries

/-- The cache without the entry of a key. -/
def erase (cache : Cache κ α) (key : κ) : Cache κ α :=
  { cache with entries := cache.entries.filter (!·.key == key) }

/-- The value of a key if it is accepted. A value that is not accepted is dropped. -/
def lookupIf (cache : Cache κ α) (accept : α → Bool) (key : κ) : Option α × Cache κ α :=
  let now := cache.clock + 1
  let cache := { cache with clock := now }
  let missed := { cache with counters := { cache.counters with misses := cache.counters.misses + 1 } }
  match cache.find? key with
  | none => (none, missed)
  | some entry =>
      if accept entry.value then
        (some entry.value,
          { cache with
            entries := cache.entries.map fun e => if e.key == key then { e with accessed := now } else e
            counters := { cache.counters with hits := cache.counters.hits + 1 } })
      else (none, missed.erase key)

/-- The value of a key. -/
def lookup (cache : Cache κ α) (key : κ) : Option α × Cache κ α := cache.lookupIf (fun _ => true) key

/-- The entries without the given number of those accessed longest ago. -/
def dropOldest (count : Nat) (entries : List (Entry κ α)) : List (Entry κ α) :=
  (entries.mergeSort fun a b => a.accessed ≤ b.accessed).drop count

/-- The cache with a value under a key. When there are too many entries, a fifth of them is
dropped. -/
def insert (cache : Cache κ α) (key : κ) (value : α) : Cache κ α :=
  let now := cache.clock + 1
  let entries := ⟨key, value, now⟩ :: (cache.erase key).entries
  if entries.length ≤ max cache.capacity 1 then { cache with clock := now, entries }
  else
    let count := max (entries.length / 5) 1
    { cache with
      clock := now
      entries := dropOldest count entries
      counters := { cache.counters with evictions := cache.counters.evictions + count } }

/-- The cache with the entries whose keys pass, and the number of those that do not. -/
def filterKeys (keep : κ → Bool) (cache : Cache κ α) : Nat × Cache κ α :=
  let entries := cache.entries.filter fun entry => keep entry.key
  (cache.size - entries.length, { cache with entries })

/-- The cache without entries, its counters at zero. -/
def clear (cache : Cache κ α) : Cache κ α := { cache with entries := [], counters := {} }

/-- The number of entries and the counters. -/
def stats (cache : Cache κ α) : Stats := ⟨cache.size, cache.counters⟩

end Cache

end Stencil
