import FolderFlow.Decimal.Binary64

/-!
# JSON values

An object keeps its members in the order in which their keys first came. The operations on members
are those of a map with that order: look-up, insertion at the first position of the key or else at
the end, and removal, which lets the last member take the place of the removed one.
-/

namespace FolderFlow

/-- An integer of 64 bits, signed or not, or a double. -/
inductive Number where
  | int (n : Int)
  | float (x : Decimal.Binary64)
  deriving DecidableEq, Repr

inductive Json where
  | null
  | bool (b : Bool)
  | number (n : Number)
  | string (s : String)
  | array (items : List Json)
  | object (members : List (String × Json))
  deriving Repr, Inhabited

/-- The members of an object. -/
abbrev Members := List (String × Json)

namespace Members

def find? (members : Members) (key : String) : Option Json :=
  members.lookup key

def keys (members : Members) : List String :=
  members.map Prod.fst

/-- Puts `value` where `key` stands, or at the end. -/
def insert (members : Members) (key : String) (value : Json) : Members :=
  match members with
  | [] => [(key, value)]
  | (k, v) :: rest => if k = key then (k, value) :: rest else (k, v) :: insert rest key value

/-- Takes out the member at the front of `rest` and puts the last member of `rest` in its place. -/
def dropHead : Members → Members
  | [] => []
  | _ :: rest =>
    match rest.getLast? with
    | none => []
    | some last => last :: rest.dropLast

/-- Takes out `key`; the last member moves into its place. -/
def remove (members : Members) (key : String) : Members :=
  match members with
  | [] => []
  | (k, v) :: rest => if k = key then dropHead ((k, v) :: rest) else (k, v) :: remove rest key

end Members

namespace Json

/-- The member `key`; `none` also when the value is no object. -/
def get? (j : Json) (key : String) : Option Json :=
  match j with
  | .object members => Members.find? members key
  | _ => none

def isNull : Json → Bool
  | .null => true
  | _ => false

def asString? : Json → Option String
  | .string s => some s
  | _ => none

def asArray? : Json → Option (List Json)
  | .array items => some items
  | _ => none

def asObject? : Json → Option Members
  | .object members => some members
  | _ => none

def nat (n : Nat) : Json :=
  .number (.int n)

def strings (items : List String) : Json :=
  .array (items.map .string)

/-- An object of the members that are there. -/
def ofMembers (members : List (String × Option Json)) : Json :=
  .object (members.filterMap fun (key, value) => value.map (key, ·))

end Json

end FolderFlow
