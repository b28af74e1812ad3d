/-!
# Tables of names

A table holds entries under names, in increasing order of the names. Entering something
under a name that is taken replaces what was there.
-/

namespace RowMajor.Buffer

/-- Entries under names, sorted by name. -/
abbrev Table (β : Type) := List (String × β)

namespace Table

variable {β : Type}

def get? (table : Table β) (name : String) : Option β :=
  table.lookup name

def put (name : String) (entry : β) : Table β → Table β
  | [] => [(name, entry)]
  | (other, old) :: rest =>
    if name = other then (name, entry) :: rest
    else if name < other then (name, entry) :: (other, old) :: rest
    else (other, old) :: put name entry rest

def remove (name : String) (table : Table β) : Table β :=
  table.filter fun (other, _) => other ≠ name

def names (table : Table β) : List String :=
  table.map Prod.fst

end Table

end RowMajor.Buffer
