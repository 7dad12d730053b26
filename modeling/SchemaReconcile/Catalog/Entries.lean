/-!
# Entries

A finite map is a list of entries in insertion order, with one entry for a key.  Putting a value for a key
keeps the place of the key; a finite set is a list in which nothing is added that is there.
-/

namespace SchemaReconcile.Catalog

variable {κ α : Type} [BEq κ]

/-- Entries with a value for a key: in the place of that key if it is there, at the end otherwise. -/
def put (key : κ) (value : α) : List (κ × α) → List (κ × α)
  | [] => [(key, value)]
  | (k, v) :: rest => if k == key then (k, value) :: rest else (k, v) :: put key value rest

/-- Entries with a value for a key that may be there already. -/
def putNew (key : κ) (value : α) (entries : List (κ × α)) : List (κ × α) :=
  match entries.lookup key with
  | some _ => entries
  | none => entries ++ [(key, value)]

/-- Entries with a change of the value of a key, which starts from a given value. -/
def alter (key : κ) (start : α) (change : α → α) (entries : List (κ × α)) : List (κ × α) :=
  put key (change ((entries.lookup key).getD start)) entries

/-- Entries made one by one: the last value of a key counts, in its first place. -/
def ofPairs (pairs : List (κ × α)) : List (κ × α) :=
  pairs.foldl (fun entries (key, value) => put key value entries) []

/-- A set with one more member. -/
def addMember (a : κ) (members : List κ) : List κ :=
  if members.contains a then members else members ++ [a]

/-- A set made one by one. -/
def ofMembers (members : List κ) : List κ :=
  members.foldl (fun set a => addMember a set) []

end SchemaReconcile.Catalog
