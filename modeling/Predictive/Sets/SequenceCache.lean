import Predictive.Sets.First

/-! Remembered FIRST sets of sequences, with a count of the requests that were answered from
memory and of those that were not. -/

set_option autoImplicit false

namespace Predictive

structure SequenceCache where
  stored : List (List Symbol × SymbolSet) := []
  hits : Nat := 0
  misses : Nat := 0
  deriving DecidableEq, Repr

namespace SequenceCache

def find? (cache : SequenceCache) (symbols : List Symbol) : Option SymbolSet :=
  (cache.stored.find? (·.1 = symbols)).map Prod.snd

def hit (cache : SequenceCache) : SequenceCache :=
  { cache with hits := cache.hits + 1 }

def miss (cache : SequenceCache) : SequenceCache :=
  { cache with misses := cache.misses + 1 }

def store (cache : SequenceCache) (symbols : List Symbol) (set : SymbolSet) : SequenceCache :=
  { cache with stored := (symbols, set) :: cache.stored }

/-- The counts stay when the sets are forgotten. -/
def forget (cache : SequenceCache) : SequenceCache :=
  { cache with stored := [] }

def requests (cache : SequenceCache) : Nat :=
  cache.hits + cache.misses

@[simp] theorem requests_hit (cache : SequenceCache) : cache.hit.requests = cache.requests + 1 := by
  simp only [requests, hit]
  omega

@[simp] theorem requests_miss (cache : SequenceCache) :
    cache.miss.requests = cache.requests + 1 := by
  simp only [requests, miss]
  omega

@[simp] theorem requests_store (cache : SequenceCache) (symbols : List Symbol) (set : SymbolSet) :
    (cache.store symbols set).requests = cache.requests := rfl

@[simp] theorem find?_store (cache : SequenceCache) (symbols : List Symbol) (set : SymbolSet) :
    (cache.store symbols set).find? symbols = some set := by
  simp [find?, store]

/-- FIRST of a sequence under finished sets, from memory if it was asked before. -/
def request (first : Assignment) (symbols : List Symbol) (cache : SequenceCache) :
    SymbolSet × SequenceCache :=
  match cache.find? symbols with
  | some set => (set, cache.hit)
  | none =>
    let set := firstOfSequence first symbols
    (set, cache.miss.store symbols set)

end SequenceCache

end Predictive
