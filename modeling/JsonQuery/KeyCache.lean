/-
# JsonQuery.KeyCache -- finding array elements by key, with memory

A `KeyIndex` lists for each `_key` of an array the first position that carries it.
A `KeyCache` remembers the index of every array that was asked for a key.

The elements of a remembered array may have changed since, so `KeyCache.lookup`
trusts no index: what it finds is fetched and checked, and if the check fails, or
the index does not know the key, the array is indexed anew.  The answer is right
whatever the cache holds; only the number of elements fetched depends on it.  Every
fetch is reported as a `Read`.
-/
import Std.Data.TreeMap
import JsonQuery.Location
import JsonQuery.Node

namespace JsonQuery

set_option autoImplicit false

/-- One element fetched from an array. -/
structure Read where
  array : Identity
  position : Nat
deriving DecidableEq, Inhabited

/-- The positions of an array by key. -/
abbrev KeyIndex := Std.TreeMap String Nat

namespace KeyIndex

/-- Adds the keys of elements from a position on; a key that is known keeps its
position. -/
def addFrom (position : Nat) : List Json → KeyIndex → KeyIndex
  | [], index => index
  | element :: rest, index =>
      addFrom (position + 1) rest <|
        match element.key? with
        | some key => index.insertIfNew key position
        | none => index

/-- The first position of each key. -/
def ofElements (elements : List Json) : KeyIndex := addFrom 0 elements ∅

end KeyIndex

/-- The indices of the arrays that were asked for a key. -/
structure KeyCache where
  indices : Std.TreeMap (List Nat) KeyIndex

/-- What a lookup found, the cache after it, and the elements it fetched. -/
structure Lookup where
  found : Option (Nat × Json)
  cache : KeyCache
  reads : List Read

namespace KeyCache

def empty : KeyCache := ⟨∅⟩

instance : Inhabited KeyCache := ⟨empty⟩

/-- The number of arrays with an index. -/
def size (cache : KeyCache) : Nat := cache.indices.size

def isEmpty (cache : KeyCache) : Bool := cache.size = 0

/-- The index of an array. -/
def index? (cache : KeyCache) (array : Identity) : Option KeyIndex :=
  cache.indices[array.toList]?

/-- Remembers the index of an array. -/
def remember (cache : KeyCache) (array : Identity) (index : KeyIndex) : KeyCache :=
  ⟨cache.indices.insert array.toList index⟩

/-- The element that an index gives for a key, if it carries the key, and the fetch
that tells. -/
def find (index : KeyIndex) (array : ArrayNode) (key : String) :
    Option (Nat × Json) × List Read :=
  match index[key]? with
  | none => (none, [])
  | some position =>
      let found := array.elements[position]?.filter fun element => element.key? = some key
      (found.map fun element => (position, element), [⟨array.identity, position⟩])

/-- The fetches of every element of an array, in order. -/
def readAll (array : ArrayNode) : List Read :=
  (List.range array.length).map fun position => ⟨array.identity, position⟩

/-- Indexes an array and finds a key with the new index. -/
def rebuild (cache : KeyCache) (array : ArrayNode) (key : String) : Lookup :=
  let index := KeyIndex.ofElements array.elements
  let (found, reads) := find index array key
  ⟨found, cache.remember array.identity index, readAll array ++ reads⟩

/-- The first element that carries a key, with its position; if elements were moved
since the array was indexed, an element that carries it. -/
def lookup (cache : KeyCache) (array : ArrayNode) (key : String) : Lookup :=
  match cache.index? array.identity with
  | none => cache.rebuild array key
  | some index =>
      match find index array key with
      | (some found, reads) => ⟨some found, cache, reads⟩
      | (none, reads) =>
          let again := cache.rebuild array key
          { again with reads := reads ++ again.reads }

end KeyCache

end JsonQuery
