import Docblock.Pattern.Basic

/-!
# Searching with a pattern

A pattern is tried at each place of a text. Where several ways of matching are
possible they are tried in turn: a way is given up when what follows the pattern
does not match behind it. What follows is a function from the place reached to
the final place, so that giving up needs no record of the ways tried.

A repetition stops after a round that matched nothing. The number of its rounds is
therefore bounded by the least number asked for and the length of the rest.
-/

namespace Docblock.Pattern

/-- A place in a text, with what the groups have matched on the way. The text
before the place is kept from its end. -/
structure Place where
  before : Text := []
  after : Text
  groups : List (Nat × Text) := []
deriving Repr

namespace Place

/-- The number of characters before a place. -/
def offset (place : Place) : Nat := place.before.length

/-- Moves over a text that stands behind the place. -/
def past (place : Place) (s : Text) : Place :=
  { place with before := s.reverse ++ place.before, after := place.after.drop s.length }

/-- Moves back by a number of characters, if there are as many. -/
def back? (place : Place) (width : Nat) : Option Place :=
  if width ≤ place.before.length then
    some { place with
      before := place.before.drop width
      after := (place.before.take width).reverse ++ place.after }
  else none

/-- Remembers what a group has matched, from one place to another. -/
def remember (index : Nat) (start stop : Place) : Place :=
  { stop with
    groups := (index, (stop.before.take (stop.offset - start.offset)).reverse) ::
      stop.groups.filter (·.1 != index) }

/-- What a group has matched. -/
def matched? (place : Place) (index : Nat) : Option Text :=
  (place.groups.find? (·.1 == index)).map (·.2)

/-- Whether a place stands between a word character and none. -/
def isWordEdge (asciiOnly : Bool) (place : Place) : Bool :=
  let isWord := fun (c : Option Char) => (c.map (CharKind.word.holds asciiOnly ·)).getD false
  isWord place.before.head? != isWord place.after.head?

/-- Whether a place is in a text without characters. -/
def isInEmpty (place : Place) : Bool := place.before.isEmpty && place.after.isEmpty

end Place

/-- Whether a condition holds at a place. A text without characters has no place
that is or is not a word edge. -/
def Spot.holds (place : Place) : Spot → Bool
  | .textStart => place.before.isEmpty
  | .lineStart => place.before.isEmpty || place.before.head? == some '\n'
  | .textEnd => place.after.isEmpty
  | .lineEnd => place.after.isEmpty || place.after.head? == some '\n'
  | .lastLineEnd => place.after.isEmpty || place.after == ['\n']
  | .wordEdge asciiOnly => !place.isInEmpty && place.isWordEdge asciiOnly
  | .noWordEdge asciiOnly => !place.isInEmpty && !place.isWordEdge asciiOnly

/-- Whether a text starts with another one, up to what counts as the same. -/
def startsWith (reading : Reading) : Text → Text → Bool
  | [], _ => true
  | _ :: _, [] => false
  | c :: wanted, d :: s => reading.equates c d && startsWith reading wanted s

/-- What follows a pattern: the final place reached from a place, if any. -/
abbrev Following := Place → Option Place

/-- A way to match: the final place reached from a place, given what follows. -/
abbrev Matching := Place → Following → Option Place

/-- The most rounds left after one more. -/
def oneLess (most : Option Nat) : Option Nat := most.map (· - 1)

/-- Whether another round beyond the least number may be tried at a place: there
is a round left, and the last one did not start here. -/
def mayGoOn (most : Option Nat) (last : Option Nat) (place : Place) : Bool :=
  most != some 0 && last != some place.offset

/-- Repeats as often as possible, then less often. -/
def greedily (body : Matching) (following : Following) :
    (rounds least : Nat) → (most last : Option Nat) → Following
  | 0, _, _, _, _ => none
  | rounds + 1, least + 1, most, last, place =>
    body place (greedily body following rounds least (oneLess most) last)
  | rounds + 1, 0, most, last, place =>
    if mayGoOn most last place then
      (body place (greedily body following rounds 0 (oneLess most) (some place.offset))).or
        (following place)
    else following place

/-- Repeats as rarely as possible, then more often. -/
def reluctantly (body : Matching) (following : Following) :
    (rounds least : Nat) → (most last : Option Nat) → Following
  | 0, _, _, _, _ => none
  | rounds + 1, least + 1, most, last, place =>
    body place (reluctantly body following rounds least (oneLess most) last)
  | rounds + 1, 0, most, last, place =>
    (following place).or
      (if mayGoOn most last place then
        body place (reluctantly body following rounds 0 (oneLess most) (some place.offset))
      else none)

/-- Repeats as often as possible, each round in its first way. -/
def possessively (body : Matching) (following : Following) :
    (rounds least : Nat) → (most last : Option Nat) → Following
  | 0, _, _, _, _ => none
  | rounds + 1, least + 1, most, last, place =>
    (body place some).bind (possessively body following rounds least (oneLess most) last)
  | rounds + 1, 0, most, last, place =>
    if mayGoOn most last place then
      match body place some with
      | some reached =>
        possessively body following rounds 0 (oneLess most) (some place.offset) reached
      | none => following place
    else following place

/-- Matches a pattern from a place on. -/
def matchFrom : Pattern → Matching
  | .empty, place, following => following place
  | .never, _, _ => none
  | .one set, place, following =>
    match place.after with
    | [] => none
    | c :: _ => if set.holds c then following (place.past [c]) else none
  | .atSpot spot, place, following => if spot.holds place then following place else none
  | .sequence first second, place, following =>
    matchFrom first place fun reached => matchFrom second reached following
  | .choice first second, place, following =>
    (matchFrom first place following).or (matchFrom second place following)
  | .repeated least most appetite body, place, following =>
    let rounds := least + place.after.length + 3
    match appetite with
    | .greedy => greedily (matchFrom body) following rounds least most none place
    | .reluctant => reluctantly (matchFrom body) following rounds least most none place
    | .possessive => possessively (matchFrom body) following rounds least most none place
  | .group index body, place, following =>
    matchFrom body place fun reached => following (Place.remember index place reached)
  | .same index reading, place, following =>
    match place.matched? index with
    | none => none
    | some s =>
      if startsWith reading s place.after then following (place.past (place.after.take s.length))
      else none
  | .whenMatched index yes no, place, following =>
    if (place.matched? index).isSome then matchFrom yes place following
    else matchFrom no place following
  | .atomic body, place, following => (matchFrom body place some).bind following
  | .ahead wanted body, place, following =>
    match matchFrom body place some with
    | some reached => if wanted then following { place with groups := reached.groups } else none
    | none => if wanted then none else following place
  | .behind wanted width body, place, following =>
    match (place.back? width).bind fun earlier => matchFrom body earlier some with
    | some reached => if wanted then following { place with groups := reached.groups } else none
    | none => if wanted then none else following place

/-- Whether a pattern matches from one of the places of a text on, the first of
which comes behind some characters. -/
def occursFrom (pattern : Pattern) (before : Text) : Text → Bool
  | [] => (matchFrom pattern { before, after := [] } some).isSome
  | c :: rest =>
    (matchFrom pattern { before, after := c :: rest } some).isSome ||
      occursFrom pattern (c :: before) rest

/-- Whether a pattern matches somewhere in a text. -/
def occursIn (pattern : Pattern) (s : Text) : Bool := occursFrom pattern [] s

end Docblock.Pattern
