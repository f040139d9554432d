import SqlSelect.Clause.JoinHint
import SqlSelect.Decimal.Positional
import SqlSelect.Dialect
import SqlSelect.Text.Quoted
import SqlSelect.Token.Keyword
import SqlSelect.Token.Symbol
namespace SqlSelect

/-! A statement is written as a list of tokens, and the list does not depend on the
dialect.  Only `Token.chars` does, and only for identifiers.
-/

inductive Token where
  | keyword (word : Keyword)
  | symbol (mark : Symbol)
  | space
  /-- A name given by the caller, quoted as the dialect says. -/
  | ident (name : String)
  /-- A string literal, in single quotes in every dialect. -/
  | string (contents : String)
  | int (value : Int64)
  | count (value : UInt64)
  | double (value : Binary64)
  /-- A part of a function name, which is never quoted. -/
  | bare (part : String)
  /-- Text that the caller vouches for. -/
  | verbatim (text : String)
  /-- No text: the place where a hint was left out. -/
  | omitted (hint : SuppressedHint)
  deriving DecidableEq

abbrev Tokens := List Token

def Dialect.ident (d : Dialect) (name : List Char) : List Char :=
  match d.mark? with
  | none => name
  | some mark => Quoted.wrap mark name

namespace Token

def chars (d : Dialect) : Token → List Char
  | .keyword word => word.chars
  | .symbol mark => mark.chars
  | .space => [' ']
  | .ident name => d.ident name.toList
  | .string contents => Quoted.wrap '\'' contents.toList
  | .int value => intText value.toInt
  | .count value => natText value.toNat
  | .double value => value.text
  | .bare part => part.toList
  | .verbatim text => text.toList
  | .omitted _ => []

def omitted? : Token → Option SuppressedHint
  | .omitted hint => some hint
  | _ => none

end Token

namespace Tokens

def chars (d : Dialect) (tokens : Tokens) : List Char := tokens.flatMap (Token.chars d)

/-- The hints left out, in the order of the text. -/
def suppressedHints (tokens : Tokens) : List SuppressedHint := tokens.filterMap Token.omitted?

@[simp] theorem chars_nil (d : Dialect) : chars d [] = [] := rfl

@[simp] theorem chars_cons (d : Dialect) (t : Token) (rest : Tokens) :
    chars d (t :: rest) = t.chars d ++ chars d rest := rfl

@[simp] theorem chars_append (d : Dialect) (left right : Tokens) :
    chars d (left ++ right) = chars d left ++ chars d right :=
  List.flatMap_append

@[simp] theorem suppressedHints_append (left right : Tokens) :
    suppressedHints (left ++ right) = suppressedHints left ++ suppressedHints right :=
  List.filterMap_append

end Tokens
end SqlSelect
