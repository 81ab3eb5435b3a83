import Unwind.Json.Token

/-!
Reading JSON text.

The reader takes one token after the other and keeps the open containers on a stack.  Each
token either completes a value, which goes into the innermost open container, or opens or
closes one.  A container nested deeper than the limit is read like any other, but stands for
nothing.
-/

namespace Unwind

/-- An open container with what it holds so far, in reverse.  A record that awaits a value
keeps the name of that value; a name may stand for no string. -/
inductive OpenContainer
  | list (items : List Json)
  | record (members : List (Option String × Json))
  | member (members : List (Option String × Json)) (name : Option String)

/-- What the reader has to see next. -/
inductive Expectation
  | value
  | valueOrClose
  | name
  | nameOrClose
  | colon
  | commaOrClose

inductive Reader
  | reading (containers : List OpenContainer) (expected : Expectation)
  | finished (j : Json)

/-- Puts a complete value into the innermost open container. -/
def Reader.complete (j : Json) : List OpenContainer → Option Reader
  | [] => some (.finished j)
  | .list items :: outer => some (.reading (.list (j :: items) :: outer) .commaOrClose)
  | .member members name :: outer =>
      some (.reading (.record ((name, j) :: members) :: outer) .commaOrClose)
  | .record _ :: _ => none

/-- A record one of whose names stands for no string stands for nothing. -/
def Json.ofMembers (members : List (Option String × Json)) : Json :=
  match members.mapM fun member => member.1.map fun name => (name, member.2) with
  | some named => .record named
  | none => .unusable

/-- Whether a list has fewer entries than a limit; looks at no more of them than that. -/
def isShorter {α : Type} : List α → Nat → Bool
  | _, 0 => false
  | [], _ + 1 => true
  | _ :: rest, limit + 1 => isShorter rest limit

theorem isShorter_iff {α : Type} (xs : List α) (limit : Nat) :
    isShorter xs limit ↔ xs.length < limit := by
  induction xs generalizing limit with
  | nil => cases limit <;> simp [isShorter]
  | cons x xs ih => cases limit <;> simp [isShorter, ih]

/-- Closes a container inside the given outer ones. -/
def Reader.close (limit : Nat) (j : Json) (outer : List OpenContainer) : Option Reader :=
  Reader.complete (if isShorter outer limit then j else .unusable) outer

/-- Takes one token. -/
def Reader.take (limit : Nat) : Reader → Token → Option Reader
  | .finished _, _ => none
  | .reading containers expected, token =>
      let begins := match expected with
        | .value | .valueOrClose => true
        | _ => false
      match token, expected, containers with
      | .scalar j, _, _ => if begins then Reader.complete j containers else none
      | .openList, _, _ =>
          if begins then some (.reading (.list [] :: containers) .valueOrClose) else none
      | .openRecord, _, _ =>
          if begins then some (.reading (.record [] :: containers) .nameOrClose) else none
      | .text name, .name, .record members :: outer
      | .text name, .nameOrClose, .record members :: outer =>
          some (.reading (.member members name :: outer) .colon)
      | .text s, _, _ =>
          if begins then Reader.complete (s.elim .unusable .text) containers else none
      | .colon, .colon, _ => some (.reading containers .value)
      | .comma, .commaOrClose, .list _ :: _ => some (.reading containers .value)
      | .comma, .commaOrClose, .record _ :: _ => some (.reading containers .name)
      | .closeList, .valueOrClose, .list items :: outer
      | .closeList, .commaOrClose, .list items :: outer =>
          Reader.close limit (.list items.reverse) outer
      | .closeRecord, .nameOrClose, .record members :: outer
      | .closeRecord, .commaOrClose, .record members :: outer =>
          Reader.close limit (Json.ofMembers members.reverse) outer
      | _, _, _ => none

/-- Reads a text that holds one value and nothing else; `none` if it is not JSON.  Containers
nested deeper than `limit` are unusable. -/
def Json.read? (limit : Nat) (s : String) : Option Json := do
  let tokens ← Token.ofText? s
  match ← tokens.foldlM (Reader.take limit) (.reading [] .value) with
  | .finished j => some j
  | .reading _ _ => none

/-- The number of nested containers that files may have. -/
def nestingLimit : Nat := 127

end Unwind
