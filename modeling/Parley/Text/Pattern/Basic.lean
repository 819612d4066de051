namespace Parley.Text

inductive Place
  | start
  | stop
  | lineStart
  | lineStop
  | anyLineStart
  | anyLineStop
  | wordEdge
  | noWordEdge
  | wordStart
  | wordStop
  deriving DecidableEq, Repr

namespace Place

def isWord (c : Char) : Bool := c.isAlphanum || c = '_'

def holds (a b : Option Char) : Place → Bool
  | start => a.isNone
  | stop => b.isNone
  | lineStart => a.isNone || a = some '\n'
  | lineStop => b.isNone || b = some '\n'
  | anyLineStart => a.isNone || a = some '\n' || (a = some '\r' && b != some '\n')
  | anyLineStop => b.isNone || b = some '\r' || (b = some '\n' && a != some '\r')
  | wordEdge => a.any isWord != b.any isWord
  | noWordEdge => a.any isWord == b.any isWord
  | wordStart => !a.any isWord && b.any isWord
  | wordStop => a.any isWord && !b.any isWord

end Place

inductive Pattern
  | empty
  | one (accepts : Char → Bool)
  | place (p : Place)
  | seq (a b : Pattern)
  | either (a b : Pattern)
  | optional (greedy : Bool) (a : Pattern)
  | repeated (greedy : Bool) (a : Pattern)

namespace Pattern

def many (greedy : Bool) (a : Pattern) : Pattern := optional greedy (repeated greedy a)

def char (c : Char) : Pattern := one (· = c)

def sequence (as : List Pattern) : Pattern := as.foldr seq empty

inductive Node
  | take (accepts : Char → Bool) (next : Nat)
  | check (p : Place) (next : Nat)
  | fork (ways : List Nat)
  | accept

abbrev Machine := Array Node

def choice (greedy : Bool) (on off : Nat) : Node := .fork (if greedy then [on, off] else [off, on])

def build (m : Machine) (next : Nat) : Pattern → Machine × Nat
  | empty => (m, next)
  | one accepts => (m.push (.take accepts next), m.size)
  | place p => (m.push (.check p next), m.size)
  | seq a b =>
    let (m, next) := b.build m next
    a.build m next
  | either a b =>
    let (m, i) := a.build m next
    let (m, j) := b.build m next
    (m.push (.fork [i, j]), m.size)
  | optional greedy a =>
    let (m, i) := a.build m next
    (m.push (choice greedy i next), m.size)
  | repeated greedy a =>
    let again := m.size
    let (m, i) := a.build (m.push (.fork [])) again
    (m.setIfInBounds again (choice greedy i next), i)

def machine (a : Pattern) : Machine × Nat := a.build #[.accept] 0

/-- All nodes that can be reached from `todo` without a character, the preferred ones first, after
those in `seen`, which has the last one first. -/
def reach (m : Machine) (here : Place → Bool) : Nat → List Nat → List Nat → List Nat
  | 0, _, seen => seen.reverse
  | _, [], seen => seen.reverse
  | fuel + 1, i :: todo, seen =>
    if i ∈ seen then reach m here fuel todo seen
    else
      match m[i]? with
      | some (.fork ways) => reach m here fuel (ways ++ todo) (i :: seen)
      | some (.check p next) =>
        reach m here fuel (if here p then next :: todo else todo) (i :: seen)
      | _ => reach m here fuel todo (i :: seen)

def isAccept (m : Machine) (i : Nat) : Bool := match m[i]? with
  | some .accept => true
  | _ => false

def after? (m : Machine) (c : Char) (i : Nat) : Option Nat := match m[i]? with
  | some (.take accepts next) => if accepts c then some next else none
  | _ => none

/-- Whether a search is at a match when the text ends. It began matches at all places up to now, if
it is `still` looking for one to begin, and goes on with those at `todo`. -/
def search (m : Machine) (entry : Nat) (before : Option Char) (todo : List Nat) (still : Bool)
    (cs : List Char) : Bool :=
  let todo := if still then todo ++ [entry] else todo
  let nodes := reach m (Place.holds before cs.head?) (3 * m.size + todo.length + 1) todo []
  let found := nodes.any (isAccept m)
  match cs with
  | [] => found
  | c :: cs =>
    let next := (nodes.takeWhile fun i => !isAccept m i).filterMap (after? m c)
    search m entry (some c) next (still && !found) cs

def endsIn (a : Pattern) (text : List Char) : Bool :=
  let (m, entry) := a.machine
  search m entry none [] true text

end Pattern

end Parley.Text
