import FolderFlow.Shell.Builtin.Basic

/-!
# What a process may do

The commands about the access to new files and about the limits of processes.
-/

namespace FolderFlow.Shell

/-! ## Access -/

/-- The access of one of the three parties, as letters. -/
def accessText (bits : Nat) : String :=
  String.ofList (([('r', 4), ('w', 2), ('x', 1)].filter fun e => bits &&& e.2 != 0).map Prod.fst)

def symbolicMask (mask : Nat) : String :=
  let access := 0o777 - mask
  ",".intercalate ([("u=", 64), ("g=", 8), ("o=", 1)].map fun e =>
    e.1 ++ accessText (access / e.2 % 8))

def octalMask (mask : Nat) : String :=
  let digits := String.ofList (Nat.toDigits 8 mask)
  String.ofList (List.replicate (4 - digits.length) '0') ++ digits

/-- The parties that letters name, one bit for each of them. -/
def parties (cs : List Char) : Nat :=
  cs.foldl (fun bits c =>
    bits ||| match c with
      | 'a' => 0o111
      | 'u' => 0o100
      | 'g' => 0o10
      | 'o' => 0o1
      | _ => 0) 0

/-- The access that letters name, given all access there is. -/
def accessOf (access : Nat) (cs : List Char) : Nat :=
  cs.foldl (fun bits c =>
    bits ||| match c with
      | 'r' => 4
      | 'w' => 2
      | 'x' => 1
      | 'u' => access / 64 % 8
      | 'g' => access / 8 % 8
      | 'o' => access % 8
      | 'X' => if access &&& 0o111 != 0 then 1 else 0
      | _ => 0) 0

/-- Changes access as the clauses of a text say, each of them with an operator. -/
def changeAccess (access : Nat) : (fuel : Nat) → (who : Nat) → (new : Nat) → List Char → Option Nat
  | 0, _, _, _ => none
  | _, _, new, [] => some new
  | fuel + 1, who, new, cs =>
    let named := cs.takeWhile "augo".toList.contains
    let who := who ||| parties named
    let who := if who = 0 then 0o111 else who
    match cs.drop named.length with
    | operator :: cs =>
      let letters := cs.takeWhile "rwxugoXs".toList.contains
      let bits := accessOf access letters * who
      let changed? : Option Nat := match operator with
        | '-' => some (new &&& (0o777 - bits))
        | '+' => some (new ||| bits)
        | '=' => some (bits ||| (new &&& (0o777 - who * 7)))
        | _ => none
      match changed?, cs.drop letters.length with
      | some new, ',' :: rest => changeAccess access fuel 0 new rest
      | some new, c :: rest =>
        if "=+-".toList.contains c then changeAccess access fuel who new (c :: rest) else none
      | some new, [] => some new
      | none, _ => none
    | [] => some new

/-- The access that files are created without. -/
def umask : Builtin := fun args => do
  let (options, args) ← withOptions ['S'] [] args
  let mask := (← get).mask
  match args with
  | [] => writeLine (if options.isEmpty then octalMask mask else symbolicMask mask)
  | text :: _ =>
    if (text.toList.head?).any Char.isDigit then
      if !text.toList.all fun c => '0' ≤ c && c ≤ '7' then illegalNumber text
      modify fun s => { s with mask := Text.valueOf 8 text.toList % 0o1000 }
    else
      let access := 0o777 - mask
      match changeAccess access (text.length + 1) 0 access text.toList with
      | some access => modify fun s => { s with mask := 0o777 - access }
      | none => fault ("Illegal mode: " ++ text)
  return 0

/-! ## Limits -/

/-- Which of the two limits of a resource is meant. -/
structure Sides where
  soft : Bool
  hard : Bool

def limitText (sides : Sides) (l : Limit) (r : Resource) : String :=
  let value := if sides.soft then l.soft else l.hard
  if value = Limit.infinity then "unlimited" else toString (value / r.unit)

/-- The limit that a text says, in the units of the system. -/
def limitValue (r : Resource) (text : String) : Exec Nat := do
  if text == "unlimited" then return Limit.infinity
  else if text.toList.all Char.isDigit then
    return Text.valueOf 10 text.toList * r.unit % 0x10000000000000000
  else fault "bad number"

def setLimit (sides : Sides) (r : Resource) (value : Nat) : Exec Unit := do
  let s ← get
  let before := s.limit r.letter
  let after : Limit := {
    soft := if sides.soft then value else before.soft
    hard := if sides.hard then value else before.hard }
  match before.refusal? after with
  | some reason => fault ("error setting limit (" ++ reason ++ ")")
  | none =>
    set { s with limits := (r.letter, after) :: s.limits.filter fun l => l.1 != r.letter }

def ulimit : Builtin := fun args => do
  let letters := resources.map Resource.letter
  let (options, args) ← withOptions (['H', 'S', 'a'] ++ letters) [] args
  let letter := ((options.map Prod.fst).reverse.find? letters.contains).getD 'f'
  let sides : Sides := match (options.map Prod.fst).reverse.find? fun c => c == 'H' || c == 'S' with
    | some 'H' => ⟨false, true⟩
    | some _ => ⟨true, false⟩
    | none => ⟨true, true⟩
  let all := options.any (·.1 == 'a')
  match args, resources.find? (·.letter == letter) with
  | _, none => return 0
  | [], some r =>
    let s ← get
    if all then
      for r in resources do
        let blanks := String.ofList (List.replicate (20 - r.name.length) ' ')
        writeLine (r.name ++ blanks ++ " " ++ limitText sides (s.limit r.letter) r)
    else writeLine (limitText sides (s.limit letter) r)
    return 0
  | text :: rest, some r =>
    if all || !rest.isEmpty then fault "too many arguments"
    setLimit sides r (← limitValue r text)
    return 0

end FolderFlow.Shell
