/-! # Tables by name

A table is a list of pairs in increasing order of their names, each name once. Names are compared
character by character, which is also the order of their bytes. -/

namespace Arbor

/-- A table by name. -/
abbrev Table (α : Type) := List (String × α)

namespace Table

/-- Puts a value under a name, in place of an earlier one. -/
def put {α : Type} (name : String) (value : α) : Table α → Table α
  | [] => [(name, value)]
  | (n, v) :: rest =>
    if name < n then (name, value) :: (n, v) :: rest
    else if name = n then (name, value) :: rest
    else (n, v) :: put name value rest

/-- The value under a name. -/
def get? {α : Type} (t : Table α) (name : String) : Option α := List.lookup name t

/-- Takes a name out. -/
def drop {α : Type} (t : Table α) (name : String) : Table α := t.filter fun p => p.1 != name

end Table

end Arbor
