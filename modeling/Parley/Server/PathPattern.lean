import Parley.Text.Quoted

namespace Parley.Server

inductive PathPart
  | literal (c : Char)
  | segment
  | rest
  deriving DecidableEq, Repr

abbrev PathPattern := List PathPart

namespace PathPattern

inductive Fault
  | empty
  | noSlash
  | colon
  | asterisk
  | name
  | segment
  | rest
  | tooMany
  | taken
  deriving DecidableEq, Repr

namespace Fault

def inBraces (text what : String) : String := "Invalid route " ++ Text.quoted text ++ ": " ++ what

def reserved (mark use what shape : String) : String :=
  "Path segments must not start with `" ++ mark ++ "`. For " ++ use ++ ", use `\x7b" ++ shape
    ++ "\x7d`. If you meant to literally match a segment starting with " ++ what
    ++ ", call `without_v07_checks` on the router."

def message (text : String) : Fault → String
  | empty => "Paths must start with a `/`. Use \"/\" for root routes"
  | noSlash => "Paths must start with a `/`"
  | colon => reserved ":" "capture groups" "a colon" "capture"
  | asterisk => reserved "*" "wildcard capture" "an asterisk" "*wildcard"
  | name => inBraces text "Parameters must be registered with a valid name"
  | segment => inBraces text "Only one parameter is allowed per path segment"
  | rest => inBraces text "Catch-all parameters are only allowed at the end of a route"
  | tooMany => "Too many route parameters."
  | taken => "Overlapping method route. Handler for `GET " ++ text ++ "` already exists"

end Fault

/-- Characters, with those marked that were written twice to stand for themselves. -/
def glyphs : List Char → List (Char × Bool)
  | '{' :: '{' :: cs => ('{', true) :: glyphs cs
  | '\x7d' :: '\x7d' :: cs => ('\x7d', true) :: glyphs cs
  | c :: cs => (c, false) :: glyphs cs
  | [] => []

inductive Place
  | outside
  | brace
  | name (isRest isLong : Bool)
  | closed

def tooManySegments : Nat := 26

def step (s : Place × PathPattern) (g : Char × Bool) : Except Fault (Place × PathPattern) :=
  match s.1, g with
  | .outside, ('{', false) => .ok (.brace, s.2)
  | .outside, ('\x7d', false) => .error .name
  | .outside, (c, _) => .ok (.outside, .literal c :: s.2)
  | .brace, ('\x7d', _) => .error .name
  | .brace, (c, _) => .ok (.name (c = '*') false, s.2)
  | .name true false, ('\x7d', false) => .error .name
  | .name true _, ('\x7d', false) => .ok (.closed, .rest :: s.2)
  | .name false _, ('\x7d', false) =>
    if (s.2.count .segment) + 1 < tooManySegments then .ok (.closed, .segment :: s.2)
    else .error .tooMany
  | .name isRest _, (c, _) =>
    if c = '*' || c = '/' then .error .name else .ok (.name isRest true, s.2)
  | .closed, ('/', _) => .ok (.outside, .literal '/' :: s.2)
  | .closed, _ => .error .segment

def parts (text : List Char) : Except Fault PathPattern := do
  match ← (glyphs text).foldlM step (.outside, []) with
  | (.outside, ps) | (.closed, ps) =>
    if .rest ∈ ps.tail then throw .rest else return ps.reverse
  | _ => throw .name

def reserved? : List Char → Option Fault
  | '/' :: ':' :: _ => some .colon
  | '/' :: '*' :: _ => some .asterisk
  | _ :: cs => reserved? cs
  | [] => none

def read (text : String) : Except Fault PathPattern :=
  match text.toList with
  | [] => .error .empty
  | c :: cs =>
    if c ≠ '/' then .error .noSlash
    else
      match reserved? (c :: cs) with
      | some f => .error f
      | none => parts (c :: cs)

/-- A part that stands for something never stands for nothing. -/
def admits : PathPattern → List Char → Bool
  | [], path => path.isEmpty
  | .literal c :: ps, d :: path => c = d && admits ps path
  | .literal _ :: _, [] => false
  | .segment :: ps, path =>
    let (segment, path) := path.span (· ≠ '/')
    !segment.isEmpty && admits ps path
  | .rest :: _, path => !path.isEmpty

end PathPattern

end Parley.Server
