/-!
# Media types

A media type is a type and a subtype, each a token, with parameters behind semicolons. The
subtype proper ends at its last plus sign, which starts a suffix. Letters of either case
are the same. A header value is looked at only if it is a text: between the quotes of a
parameter any character of a text may stand.

## Main Definitions

* `Control.isHeaderCharacter` — the characters of a header value that is a text
* `Control.MediaType` — the type and the subtype
* `Control.MediaType.read` — reading a header value
* `Control.MediaType.isJson` — whether it is the type of documents
-/

namespace FaultPoints.Control

/-- Whether a character may stand in a token. -/
def isTokenCharacter (c : Char) : Bool :=
  c.isAlphanum || "!#$%&'*+-.^_`|~".toList.contains c

/-- Whether a character may stand in the value of a header that is read as a text: a tab, or a
visible character of ASCII or a space. -/
def isHeaderCharacter (c : Char) : Bool := c.toNat == 9 || (32 ≤ c.toNat && c.toNat < 127)

/-- A type and a subtype in small letters. -/
structure MediaType where
  /-- The type. -/
  type : String
  /-- The subtype without its suffix. -/
  subtype : String
  deriving DecidableEq

namespace MediaType

/-- The leading token of a list with what follows it. -/
def token (cs : List Char) : List Char × List Char :=
  (cs.takeWhile isTokenCharacter, cs.dropWhile isTokenCharacter)

/-- Behind a quoted value: spaces, then the end or the next parameter. -/
def afterQuoted (cs : List Char) : Option (List Char) :=
  match cs.dropWhile (· = ' ') with
  | [] => some []
  | ';' :: rest => some rest
  | _ => none

/-- The value of a parameter with what follows the semicolon behind it. -/
def parameterValue (cs : List Char) : Option (List Char) :=
  match cs with
  | '"' :: rest =>
    match rest.dropWhile (· ≠ '"') with
    | '"' :: after =>
      if (rest.takeWhile (· ≠ '"')).isEmpty then none else afterQuoted after
    | _ => none
  | _ =>
    match token cs with
    | (_, []) => some []
    | (v, ';' :: rest) => if v.isEmpty then none else some rest
    | _ => none

/-- Whether the rest of a media type consists of parameters. -/
def parameters : Nat → List Char → Bool
  | 0, _ => false
  | fuel + 1, cs =>
    match cs.dropWhile (· = ' ') with
    | [] => true
    | cs =>
      match token cs with
      | (name, '=' :: rest) =>
        if name.isEmpty then false
        else match parameterValue rest with
          | some after => parameters fuel after
          | none => false
      | _ => false

/-- A text in small letters. -/
def folded (cs : List Char) : String := String.ofList (cs.map Char.toLower)

/-- A subtype without the suffix that its last plus sign starts. -/
def withoutSuffix (cs : List Char) : List Char :=
  match cs.reverse.dropWhile (· ≠ '+') with
  | '+' :: stem => if stem.isEmpty then cs else stem.reverse
  | _ => cs

/-- The media type that characters spell, if they spell one. -/
def spelled (cs : List Char) : Option MediaType :=
  match token cs with
  | ([], _) => none
  | (type, '/' :: rest) =>
    match token rest with
    | ([], _) => none
    | (subtype, after) =>
      let isWhole := match after with
        | [] => true
        | ';' :: more => parameters (more.length + 1) more
        | _ => false
      if isWhole then some ⟨folded type, folded (withoutSuffix subtype)⟩ else none
  | _ => none

/-- The media type of a header value, if it is one. A value with any other character than those
of a text is none. -/
def read (s : String) : Option MediaType :=
  if s.toList.all isHeaderCharacter then spelled s.toList else none

/-- Whether a media type is the one of documents. -/
def isJson (m : MediaType) : Bool := m.type == "application" && m.subtype == "json"

end MediaType

end FaultPoints.Control
