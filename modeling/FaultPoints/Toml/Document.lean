import FaultPoints.Toml.Scalar

/-!
# Settings files

A settings file is a list of lines: headers that open a table, and keys with values that
belong to the table opened last. Dotted keys and headers open the tables on their way. A
table is defined once: neither a header nor a dotted key may add to a table that was
defined in another way.

## Main Definitions

* `Toml.Value` — a value of a file
* `Toml.Item` — a value or a table in the making
* `Toml.openTable`, `Toml.openElement`, `Toml.assign` — what lines do to a document
* `Toml.readDocument` — a whole file
-/

namespace FaultPoints.Toml

/-- A value of a file. -/
inductive Value where
  /-- A value without parts. -/
  | scalar (value : Scalar)
  /-- Values in order. -/
  | list (items : List Value)
  /-- Values under keys. -/
  | table (entries : List (String × Value))

/-- How a table came into being. -/
inductive Origin where
  /-- On the way to another table. -/
  | passing
  /-- On the way of a dotted key. -/
  | dotted
  /-- Under a header of its own, or between braces. -/
  | defined
  deriving DecidableEq, Repr

/-- What stands under a key of a table in the making. -/
inductive Item where
  /-- A value. -/
  | value (v : Value)
  /-- A table. -/
  | table (origin : Origin) (entries : List (String × Item))
  /-- Tables in order, each under a header of its own, the latest first. -/
  | tables (elements : List (List (String × Item)))

/-- A table in the making. -/
abbrev Entries := List (String × Item)

/-- What stands under a key. -/
def Entries.lookup (k : String) : Entries → Option Item
  | [] => none
  | (k', i) :: rest => if k = k' then some i else Entries.lookup k rest

/-- The entries with one replaced or added at the end. -/
def Entries.put (k : String) (i : Item) : Entries → Entries
  | [] => [(k, i)]
  | (k', i') :: rest => if k = k' then (k, i) :: rest else (k', i') :: Entries.put k i rest

/-- Changes the table at the end of a header's path; tables that are not there are opened on
the way, and the latest of several tables is the one meant. -/
def within (change : Entries → Option Entries) : List String → Entries → Option Entries
  | [], es => change es
  | k :: rest, es =>
    match es.lookup k with
    | none => do
      let inner ← within change rest []
      pure (es.put k (.table .passing inner))
    | some (.table origin inner) => do
      let inner ← within change rest inner
      pure (es.put k (.table origin inner))
    | some (.tables (latest :: earlier)) => do
      let latest ← within change rest latest
      pure (es.put k (.tables (latest :: earlier)))
    | some _ => none

/-- A header opens a table that was not defined before. -/
def openTable (k : String) (es : Entries) : Option Entries :=
  match es.lookup k with
  | none => some (es.put k (.table .defined []))
  | some (.table .passing inner) => some (es.put k (.table .defined inner))
  | some _ => none

/-- A header in double brackets opens one more table under a key. -/
def openElement (k : String) (es : Entries) : Option Entries :=
  match es.lookup k with
  | none => some (es.put k (.tables [[]]))
  | some (.tables elements) => some (es.put k (.tables ([] :: elements)))
  | some _ => none

/-- Stores a value under a dotted key. -/
def assign (v : Value) : List String → Entries → Option Entries
  | [], _ => none
  | [k], es => if (es.lookup k).isSome then none else some (es.put k (.value v))
  | k :: rest, es =>
    match es.lookup k with
    | none => do
      let inner ← assign v rest []
      pure (es.put k (.table .dotted inner))
    | some (.table .dotted inner) => do
      let inner ← assign v rest inner
      pure (es.put k (.table .dotted inner))
    | some (.table .passing inner) =>
      -- A table on the way of a header may be crossed, but nothing may be added to it.
      if rest.length ≤ 1 then none
      else do
        let inner ← assign v rest inner
        pure (es.put k (.table .passing inner))
    | some _ => none

mutual

/-- What an item stands for once it is made. -/
def Item.made : Item → Value
  | .value v => v
  | .table _ entries => .table (madeEntries entries)
  | .tables elements => .list (madeElements elements)

/-- The entries of a table once they are made. -/
def madeEntries : List (String × Item) → List (String × Value)
  | [] => []
  | (k, i) :: rest => (k, i.made) :: madeEntries rest

/-- Tables in order once they are made. -/
def madeElements : List (List (String × Item)) → List Value
  | [] => []
  | es :: earlier => madeElements earlier ++ [.table (madeEntries es)]

end

/-- Whether a key may have the character without quotes. -/
def isBareKey (c : Char) : Bool := c.isAlphanum || c = '_' || c = '-'

/-- One part of a key. -/
def readKeyPart (cs : List Char) : Option (String × List Char) :=
  match cs with
  | '"' :: _ => readText true cs
  | '\'' :: _ => readText true cs
  | _ =>
    let bare := cs.takeWhile isBareKey
    if bare.isEmpty then none else some (String.ofList bare, cs.dropWhile isBareKey)

/-- A key with points between its parts. The first argument bounds their number. -/
def readKey : Nat → Reader (List String)
  | 0, _ => none
  | fuel + 1, cs => do
    let (part, rest) ← readKeyPart (dropSpace cs)
    match dropSpace rest with
    | '.' :: more => (readKey fuel more).map fun r => (part :: r.1, r.2)
    | rest => some ([part], rest)

/-- What follows a comment, if one starts here. It holds no controls. -/
def dropComment : List Char → List Char
  | '#' :: rest => rest.dropWhile isPlain
  | cs => cs

/-- Blanks, comments and ends of lines in front of a list. -/
def dropGap : Nat → List Char → List Char
  | 0, cs => cs
  | fuel + 1, cs =>
    let cs := dropComment (dropSpace cs)
    match dropNewline cs with
    | some rest => dropGap fuel rest
    | none => cs

/-- The first depth of brackets and braces, and the first number of parts of a key, that is
too great. -/
def depthLimit : Nat := 80

mutual

/-- A value at a depth. The first argument bounds the steps. -/
def readValue : Nat → Nat → List Char → Option (Value × List Char)
  | 0, _, _ => none
  | fuel + 1, depth, '[' :: rest =>
    if depthLimit ≤ depth + 1 then none
    else (readItems fuel (depth + 1) rest).map fun r => (.list r.1, r.2)
  | fuel + 1, depth, '\x7b' :: rest =>
    if depthLimit ≤ depth + 1 then none
    else
      match dropSpace rest with
      | '\x7d' :: rest => some (.table [], rest)
      | rest =>
        (readMembers fuel (depth + 1) [] rest).map fun r => (.table (madeEntries r.1), r.2)
  | _, _, cs => (readScalar cs).map fun r => (.scalar r.1, r.2)

/-- The rest of a list between brackets. A comma may follow the last item. -/
def readItems : Nat → Nat → List Char → Option (List Value × List Char)
  | 0, _, _ => none
  | fuel + 1, depth, cs =>
    match dropGap cs.length cs with
    | ']' :: rest => some ([], rest)
    | cs => do
      let (v, rest) ← readValue fuel depth cs
      match dropGap rest.length rest with
      | ',' :: rest => do
        let (vs, rest) ← readItems fuel depth rest
        pure (v :: vs, rest)
      | ']' :: rest => some ([v], rest)
      | _ => none

/-- The rest of a table between braces, all on one line. -/
def readMembers : Nat → Nat → Entries → List Char → Option (Entries × List Char)
  | 0, _, _, _ => none
  | fuel + 1, depth, es, cs => do
    let (key, rest) ← readKey (depthLimit - 1) cs
    let rest ← dropFront ['='] rest
    let (v, rest) ← readValue fuel depth (dropSpace rest)
    let es ← assign v key es
    match dropSpace rest with
    | ',' :: rest => readMembers fuel depth es rest
    | '\x7d' :: rest => some (es, rest)
    | _ => none

end

/-- Where lines belong: a table, or the latest of several. -/
abbrev Place := List String

/-- The end of a line, behind blanks and a comment. -/
def dropLineEnd (cs : List Char) : Option (List Char) :=
  let cs := dropComment (dropSpace cs)
  if cs.isEmpty then some [] else dropNewline cs

/-- Changes a document at the last key of a header. -/
def atHeader (change : String → Entries → Option Entries) (path : Place) (doc : Entries) :
    Option Entries :=
  match path.getLast? with
  | none => none
  | some k => within (change k) path.dropLast doc

/-- One line with a header or a value. -/
def readLine (place : Place) (doc : Entries) (cs : List Char) :
    Option (Place × Entries × List Char) :=
  match cs with
  | '[' :: '[' :: rest => do
    let (path, rest) ← readKey (depthLimit - 1) rest
    let rest ← dropFront [']', ']'] rest
    let doc ← atHeader openElement path doc
    pure (path, doc, rest)
  | '[' :: rest => do
    let (path, rest) ← readKey (depthLimit - 1) rest
    let rest ← dropFront [']'] rest
    let doc ← atHeader openTable path doc
    pure (path, doc, rest)
  | _ => do
    let (key, rest) ← readKey (depthLimit - 1) cs
    let rest ← dropFront ['='] rest
    let (v, rest) ← readValue (rest.length + 1) 0 (dropSpace rest)
    let doc ← within (assign v key) place doc
    pure (place, doc, rest)

/-- The lines of a document. The first argument bounds their number. -/
def readLines : Nat → Place → Entries → List Char → Option Entries
  | 0, _, _, _ => none
  | fuel + 1, place, doc, cs =>
    match dropGap cs.length cs with
    | [] => some doc
    | cs => do
      let (place, doc, rest) ← readLine place doc cs
      let rest ← dropLineEnd rest
      readLines fuel place doc rest

/-- The entries of a whole file. A byte order mark in front is passed over. -/
def readDocument (s : String) : Option (List (String × Value)) :=
  let cs := match s.toList with
    | '\ufeff' :: rest => rest
    | cs => cs
  (readLines (cs.length + 1) [] [] cs).map madeEntries

end FaultPoints.Toml
