/-
Module: HostControl.Config.EnvFile
Purpose: Files that add variables to the environment. Each statement gives a name and a value; a value
  may be quoted, run over several lines, and hold the values of other variables. A variable that the
  environment has already stays as it is.
Main exports: EnvFile.statements, EnvFile.assignment, EnvFile.afterStatements?, EnvFile.extend?
-/
import HostControl.Config.Load
import HostControl.Text.Alphanumeric

namespace HostControl.Config.EnvFile

open Text

/-! ### Statements -/

/-- Where a reader stands that looks for the end of a statement. -/
inductive Position where
  | plain
  /-- Behind a blank, where a comment may begin. -/
  | blank
  | escaped
  | weak
  | weakEscaped
  | strong
  | strongEscaped
deriving DecidableEq, Repr

/-- Where the reader stands after one more character. Outside quotes a number sign behind a blank
begins a comment, and then there is no next position. -/
def Position.next (c : Char) : Position → Option Position
  | .plain =>
    if isBlank c && c != '\n' && c != '\r' then some .blank
    else if c = '\\' then some .escaped
    else if c = '"' then some .weak
    else if c = '\'' then some .strong
    else some .plain
  | .blank =>
    if c = '#' then none
    else if c = '\\' then some .escaped
    else if c = '"' then some .weak
    else if c = '\'' then some .strong
    else some .plain
  | .escaped => some .plain
  | .weak => some (if c = '\\' then .weakEscaped else if c = '"' then .plain else .weak)
  | .weakEscaped => some .weak
  | .strong => some (if c = '\\' then .strongEscaped else if c = '\'' then .plain else .strong)
  | .strongEscaped => some .strong

/-- The part of a line in front of a comment, and where the reader stands at the end of the line. With
a comment that is the end of the statement. -/
def scanLine : Position → List Char → List Char × Position
  | p, [] => ([], p)
  | p, c :: rest =>
    match p.next c with
    | none => ([], .plain)
    | some q => let (kept, last) := scanLine q rest; (c :: kept, last)

/-- The lines of a text, each with its end. -/
def lines : List Char → List (List Char)
  | [] => []
  | c :: rest =>
    if c = '\n' then [c] :: lines rest
    else
      match lines rest with
      | [] => [[c]]
      | line :: more => (c :: line) :: more

/-- The statements of a list of lines, given the position behind the lines already held. A statement
that the text leaves open is none. -/
def gather : Position → List Char → List (List Char) → List (Option (List Char))
  | p, _, [] => if p = .plain then [] else [none]
  | p, held, line :: rest =>
    if ((held ++ line).dropWhile isBlank).head? = some '#' then some [] :: gather .plain [] rest
    else
      match scanLine p line with
      | (kept, .plain) => some (held ++ kept) :: gather .plain [] rest
      | (kept, q) => gather q (held ++ kept) rest

/-- The statements of a text, up to and including one that is left open. A mark of the byte order in
front does not count. -/
def statements (text : List Char) : List (Option (List Char)) :=
  let text := match text with
    | '\ufeff' :: rest => rest
    | text => text
  gather .plain [] (lines text)

/-! ### Values -/

/-- The quotes around a part of a value. Strong ones hold every character as it stands. -/
inductive Quote where
  | none
  | weak
  | strong
deriving DecidableEq, Repr

/-- What the next character of a value belongs to. -/
inductive Phase where
  | text
  | escaped
  /-- Behind the value, where only blanks and a comment may follow. -/
  | ended
  /-- The name of a variable. -/
  | name (soFar : List Char)
  /-- The name of a variable in braces. -/
  | braced (soFar : List Char)
deriving DecidableEq, Repr

/-- The character that an escaped one stands for. -/
def unescape? (c : Char) : Option Char :=
  if c = 'n' then some '\n'
  else if c = '\\' || c = '\'' || c = '"' || c = '$' || c = ' ' then some c
  else none

/-- The value of a variable; one that is not set has the empty value. -/
def valueOf (env : Environment) (name : List Char) : List Char :=
  ((env (String.ofList name)).getD "").toList

/-- The value that a text denotes. A name behind a dollar sign consists of letters and numbers; the
character behind it belongs to the value, whatever it is. -/
def value? (env : Environment) : Quote → Phase → List Char → Option (List Char)
  | .none, .name n, [] => some (valueOf env n)
  | _, .braced _, [] => none
  | .none, _, [] => some []
  | _, _, [] => none
  | quote, .ended, c :: rest =>
    if c = ' ' || c = '\t' then value? env quote .ended rest
    else if c = '#' then some []
    else none
  | quote, .escaped, c :: rest =>
    match unescape? c with
    | some d => (value? env quote .text rest).map (d :: ·)
    | none => none
  | quote, .name n, c :: rest =>
    if isAlphanumeric c then value? env quote (.name (n ++ [c])) rest
    else if c = '\x7b' && n.isEmpty then value? env quote (.braced []) rest
    else if c = '$' then (value? env quote (.name []) rest).map (valueOf env n ++ ·)
    else (value? env quote .text rest).map (valueOf env n ++ c :: ·)
  | quote, .braced n, c :: rest =>
    if c = '\x7d' then (value? env quote .text rest).map (valueOf env n ++ ·)
    else value? env quote (.braced (n ++ [c])) rest
  | .strong, .text, c :: rest =>
    if c = '\'' then value? env .none .text rest else (value? env .strong .text rest).map (c :: ·)
  | .weak, .text, c :: rest =>
    if c = '$' then value? env .weak (.name []) rest
    else if c = '"' then value? env .none .text rest
    else if c = '\\' then value? env .weak .escaped rest
    else (value? env .weak .text rest).map (c :: ·)
  | .none, .text, c :: rest =>
    if c = '$' then value? env .none (.name []) rest
    else if c = '\'' then value? env .strong .text rest
    else if c = '"' then value? env .weak .text rest
    else if c = '\\' then value? env .none .escaped rest
    else if c = ' ' || c = '\t' then value? env .none .ended rest
    else (value? env .none .text rest).map (c :: ·)

/-! ### Assignments -/

/-- Whether a name may begin with a character. -/
def startsName (c : Char) : Bool := c.isAlpha || c = '_'

def continuesName (c : Char) : Bool := c.isAlphanum || c = '_' || c = '.'

/-- A name, and what follows it without the blanks in front. -/
def name? (cs : List Char) : Option (List Char × List Char) :=
  if cs.head?.any startsName then
    some (cs.takeWhile continuesName, (cs.dropWhile continuesName).dropWhile isBlank)
  else none

/-- What a statement says. -/
inductive Statement where
  | nothing
  | assign (name value : String)
  | malformed
deriving DecidableEq, Repr

/-- Whether nothing but a comment is left. -/
def isOver (cs : List Char) : Bool := cs.isEmpty || cs.head? = some '#'

/-- The assignment of a name, from the text behind it on. -/
def assignTo (env : Environment) (name : List Char) : List Char → Statement
  | '=' :: rest =>
    let rest := rest.dropWhile isBlank
    if isOver rest then .assign (String.ofList name) ""
    else
      match value? env .none .text rest with
      | some value => .assign (String.ofList name) (String.ofList value)
      | none => .malformed
  | _ => .malformed

/-- What the text of a statement says. The word `export` in front of a name does not count, but it is a
name when an equals sign follows. -/
def assignment (env : Environment) (text : List Char) : Statement :=
  let text := trimChars text
  if isOver text then .nothing
  else
    match name? text with
    | none => .malformed
    | some (name, rest) =>
      if name = "export".toList && rest.head? != some '=' then
        match name? rest with
        | none => .malformed
        | some (name, rest) => assignTo env name rest
      else assignTo env name rest

/-- Whether an environment can hold a value: a NUL would end it. -/
def isStorable (value : String) : Bool := !value.toList.contains '\x00'

/-- An environment with one more variable. A variable that it has already stays as it is; the value of a
new one has to be storable. -/
def define? (name value : String) (env : Environment) : Option Environment :=
  if (env name).isSome then some env
  else if isStorable value then some fun n => env n <|> if n = name then some value else none
  else none

/-- The environment after a list of statements, if it can hold their values. The first malformed one ends
the list. -/
def afterStatements? (env : Environment) : List (Option (List Char)) → Option Environment
  | some text :: rest =>
    match assignment env text with
    | .nothing => afterStatements? env rest
    | .assign name value =>
      match define? name value env with
      | some env => afterStatements? env rest
      | none => none
    | .malformed => some env
  | _ => some env

/-- The environment with the variables of a file, if it can hold them. -/
def extend? (contents : String) (env : Environment) : Option Environment :=
  afterStatements? env (statements contents.toList)

end HostControl.Config.EnvFile
