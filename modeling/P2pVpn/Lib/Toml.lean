import Mathlib

set_option autoImplicit false

/-! # TOML documents of plain strings

The part of TOML that small configuration files need: blank lines, comment lines, headers of tables
with a bare name, and pairs of a bare key and a basic string without escapes, one to a line.
`Toml.read` gives the tables of such a document in reverse order; on any other text it gives `none`,
whether or not the text is TOML. What it accepts is TOML: a table is defined once, a key once in its
table, and no control character occurs. -/

namespace Toml

/-- A table with its pairs, in the order of the document. -/
structure Table where
  name : String
  pairs : List (String × String)
  keys_nodup : (pairs.map Prod.fst).Nodup

/-- A line, as far as it is read. -/
inductive Line where
  | blank
  | header (name : String)
  | pair (key value : String)
  deriving DecidableEq

/-- What a comment or a string may have in it. -/
def isText (c : Char) : Bool := c == '\t' || (decide (0x20 ≤ c.toNat) && c.toNat != 0x7f)

/-- A character of a bare key. -/
def isBare (c : Char) : Bool := c.isAlphanum || c == '_' || c == '-'

/-- Space between the parts of a line. -/
def isBlank (c : Char) : Bool := c == ' ' || c == '\t'

/-- Behind a key: the equals sign and the string. -/
def readValue (chars : List Char) : Option String :=
  match chars.dropWhile isBlank with
  | '=' :: rest =>
      match rest.dropWhile isBlank with
      | '"' :: rest =>
          let value := rest.dropLast
          if rest.getLast? = some '"' ∧ value.all fun c => isText c && c != '"' && c != '\\' then
            some (String.ofList value)
          else none
      | _ => none
  | _ => none

/-- One line: blank or a comment, the header of a table, or a pair. -/
def readLine (line : List Char) : Option Line :=
  match (line.dropWhile isBlank).rdropWhile isBlank with
  | [] => some .blank
  | '#' :: comment => if comment.all isText then some .blank else none
  | '[' :: rest =>
      let name := rest.dropLast
      if rest.getLast? = some ']' ∧ name ≠ [] ∧ name.all isBare then
        some (.header (String.ofList name))
      else none
  | chars =>
      let key := chars.takeWhile isBare
      if key = [] then none
      else (readValue (chars.dropWhile isBare)).map fun value => .pair (String.ofList key) value

/-- One line more, with the table it belongs to in front. -/
def addLine (tables : List Table) : Line → Option (List Table)
  | .blank => some tables
  | .header name =>
      if tables.any fun t => t.name == name then none
      else some (⟨name, [], List.nodup_nil⟩ :: tables)
  | .pair key value =>
      match tables with
      | [] => none
      | t :: rest =>
          if h : key ∈ t.pairs.map Prod.fst then none
          else
            some (⟨t.name, t.pairs ++ [(key, value)], by
              rw [List.map_append]
              exact t.keys_nodup.append (List.nodup_singleton key)
                (List.disjoint_singleton.2 h)⟩ :: rest)

/-- Line by line, into the tables so far. -/
def readLines (tables : List Table) : List (List Char) → Option (List Table)
  | [] => some tables
  | line :: rest =>
      match readLine line with
      | none => none
      | some l =>
          match addLine tables l with
          | none => none
          | some tables' => readLines tables' rest

/-- The tables of a document. -/
def read (text : String) : Option (List Table) := readLines [] (text.toList.splitOn '\n')

/-- The pairs of a table, if the document has it. -/
def pairs (tables : List Table) (name : String) : Option (List (String × String)) :=
  (tables.find? fun t => t.name == name).map Table.pairs

end Toml
