import ScanJobs.Table
import ScanJobs.Text.Blank

/-! # Files of variables

A file of variables has a binding `name=value` on each line, if need be after `export`. A value in
quotes may span lines and holds escapes; any other ends before a comment. A name may stand without a
value. Lines that are no bindings are passed over. In values, a name between braces after a dollar
sign stands for the value of that variable, or for the default after `:-`. A mark of the byte order
may stand before all this and does not count.
-/

namespace ScanJobs.Settings.Dotenv

open Text

/-! ## Bindings -/

/-- The characters after a mark of the byte order, if there is one. -/
def afterMark : List Char → List Char
  | '\ufeff' :: cs => cs
  | cs => cs

/-- Line breaks of every kind as line feeds. -/
def unifyBreaks : List Char → List Char
  | '\r' :: '\n' :: cs => '\n' :: unifyBreaks cs
  | '\r' :: cs => '\n' :: unifyBreaks cs
  | c :: cs => c :: unifyBreaks cs
  | [] => []

/-- A blank character within a line. -/
def isInlineBlank (c : Char) : Bool :=
  isBlankChar c && c != '\n'

/-- The characters up to the closing quote `q`. A backslash and the character after it are part of the
value. -/
def quotedBody? (q : Char) : List Char → Option (List Char × List Char)
  | '\\' :: c :: cs => (quotedBody? q cs).map fun p => ('\\' :: c :: p.1, p.2)
  | c :: cs => if c = q then some ([], cs) else (quotedBody? q cs).map fun p => (c :: p.1, p.2)
  | [] => none

/-- What a character stands for after a backslash between single quotes. -/
def singleEscape? (c : Char) : Option Char :=
  if c = '\\' || c = '\'' then some c else none

/-- What a character stands for after a backslash between double quotes. -/
def doubleEscape? (c : Char) : Option Char :=
  match c with
  | '\\' | '\'' | '"' => some c
  | 'a' => some '\x07'
  | 'b' => some '\x08'
  | 'f' => some '\x0c'
  | 'n' => some '\n'
  | 'r' => some '\r'
  | 't' => some '\t'
  | 'v' => some '\x0b'
  | _ => none

/-- The characters with their escapes replaced. -/
def unescape (escape? : Char → Option Char) : List Char → List Char
  | '\\' :: c :: cs =>
    match escape? c with
    | some d => d :: unescape escape? cs
    | none => '\\' :: unescape escape? (c :: cs)
  | c :: cs => c :: unescape escape? cs
  | [] => []

/-- The characters before a comment, which begins with a number sign after a blank. -/
def beforeComment : List Char → List Char
  | c :: '#' :: cs => if isBlankChar c then [] else c :: beforeComment ('#' :: cs)
  | c :: cs => c :: beforeComment cs
  | [] => []

/-- The characters without the blanks at the end. -/
def trimEnd (cs : List Char) : List Char :=
  (cs.reverse.dropWhile isBlankChar).reverse

/-- The value after the sign that binds it, and the rest. -/
def value? (cs : List Char) : Option (List Char × List Char) :=
  match cs with
  | '\'' :: cs => (quotedBody? '\'' cs).map fun p => (unescape singleEscape? p.1, p.2)
  | '"' :: cs => (quotedBody? '"' cs).map fun p => (unescape doubleEscape? p.1, p.2)
  | cs => let (line, rest) := cs.span (· != '\n'); some (trimEnd (beforeComment line), rest)

/-- The text after `export`, if it starts with it. -/
def afterExport (cs : List Char) : List Char :=
  if "export".toList.isPrefixOf cs && ((cs.drop 6).head?.any isInlineBlank) then
    (cs.drop 6).dropWhile isInlineBlank
  else cs

/-- A name, bare or between single quotes; none in a comment. -/
def name? (cs : List Char) : Option (Option (List Char) × List Char) :=
  match cs with
  | '#' :: _ => some (none, cs)
  | '\'' :: cs =>
    match cs.span (· != '\'') with
    | (name, _ :: rest) => if name.isEmpty then none else some (some name, rest)
    | _ => none
  | cs =>
    let (name, rest) := cs.span fun c => c != '=' && c != '#' && !isBlankChar c
    if name.isEmpty then none else some (some name, rest)

/-- What is left after the end of the line, or nothing if more stands on it. -/
def afterLine? (cs : List Char) : Option (List Char) :=
  let cs := match cs.dropWhile isInlineBlank with
    | '#' :: rest => rest.dropWhile (· != '\n')
    | rest => rest
  match cs with
  | [] => some []
  | '\n' :: rest => some rest
  | _ => none

/-- The value after the sign that binds it and blanks. It is empty if a comment follows these. -/
def valueAfterBlanks? (cs : List Char) : Option (List Char × List Char) :=
  match cs.span isInlineBlank with
  | (_ :: _, '#' :: rest) => some ([], '#' :: rest)
  | (_, rest) => value? rest

/-- The value of a name. One without the sign that binds it has none. -/
def binding? (cs : List Char) : Option (Option (List Char) × List Char) :=
  match cs with
  | '=' :: rest => (valueAfterBlanks? rest).map fun p => (some p.1, p.2)
  | cs => some (none, cs)

/-- The rest after the line on which `cs` starts. -/
def skipLine (cs : List Char) : List Char :=
  (cs.dropWhile (· != '\n')).drop 1

/-- A binding, if there is one, and the rest. -/
def statement (cs : List Char) : Option (List Char × Option (List Char)) × List Char :=
  match name? (afterExport cs) with
  | none => (none, skipLine (afterExport cs))
  | some (name, rest) =>
    let rest := rest.dropWhile isInlineBlank
    match binding? rest with
    | none => (none, skipLine (rest.drop 1))
    | some (value, rest) =>
      match afterLine? rest with
      | none => (none, skipLine rest)
      | some rest => (name.map fun n => (n, value), rest)

/-- The bindings of a file, in `fuel` statements at most. -/
def statements : Nat → List Char → List (List Char × Option (List Char))
  | 0, _ => []
  | fuel + 1, cs =>
    match cs.dropWhile isBlankChar with
    | [] => []
    | cs => let (b, rest) := statement cs; b.toList ++ statements fuel rest

/-! ## Variables in values -/

/-- A variable between braces, with its default. -/
def reference? (cs : List Char) : Option ((List Char × List Char) × List Char) :=
  let (name, rest) := cs.span fun c => c != '\x7d' && c != ':'
  match rest with
  | '\x7d' :: rest => some ((name, []), rest)
  | ':' :: '-' :: rest =>
    match rest.span (· != '\x7d') with
    | (default, _ :: rest) => some ((name, default), rest)
    | _ => none
  | _ => none

/-- The value with the variables replaced, in `fuel` steps at most. -/
def replace (lookup : String → Option String) : Nat → List Char → List Char
  | 0, cs => cs
  | fuel + 1, cs =>
    match cs with
    | [] => []
    | '$' :: '\x7b' :: rest =>
      match reference? rest with
      | some ((name, default), rest) =>
        ((lookup (String.ofList name)).map String.toList).getD default ++ replace lookup fuel rest
      | none => '$' :: replace lookup fuel ('\x7b' :: rest)
    | c :: rest => c :: replace lookup fuel rest

/-- What a name stands for: what the file bound it to last, else what the environment does. A name
bound to no value stands for the empty text. -/
def lookUp (environment : Table String String) (bound : Table String (Option String))
    (name : String) : Option String :=
  match bound.get? name with
  | some value => some (value.getD "")
  | none => environment.get? name

/-- Adds a binding, with the variables in its value replaced. -/
def bindNext (environment : Table String String) (bound : Table String (Option String))
    (b : List Char × Option (List Char)) : Table String (Option String) :=
  bound.insert (String.ofList b.1) <| b.2.map fun v =>
    String.ofList (replace (lookUp environment bound) v.length v)

/-- **The bindings of a file**, in an environment. -/
def read (environment : Table String String) (text : String) : Table String (Option String) :=
  let cs := unifyBreaks (afterMark text.toList)
  (statements cs.length cs).foldl (bindNext environment) Table.empty

end ScanJobs.Settings.Dotenv
