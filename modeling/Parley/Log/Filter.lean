import Parley.Log.Directive
import Parley.Log.Event

namespace Parley.Log

namespace Directive

def isOfEvents (d : Directive) : Bool := d.span.isNone && !d.field.any fun f => f.value.isSome

def isOfSpans (d : Directive) : Bool := d.span.isSome || d.field.isSome

def fieldName (d : Directive) : Option String := d.field.map (·.name)

def hasValue (d : Directive) : Bool := d.field.any fun f => f.value.isSome

def isFor (d : Directive) (source : String) (fields : List String) : Bool :=
  d.source.all (fun s => s.toList.isPrefixOf source.toList) && d.fieldName.all (· ∈ fields)

def coversEvent (d : Directive) (e : Event) : Bool := d.isOfEvents && d.isFor e.source e.fields

def specificity (d : Directive) : Nat × Nat :=
  (d.source.elim 0 fun s => s.utf8ByteSize + 1, if d.field.isSome then 1 else 0)

def label (d : Directive) : String × String := (d.source.getD "", d.fieldName.getD "")

def precedes (d b : Directive) : Bool :=
  match (compareOfLessAndEq d.specificity.1 b.specificity.1).then
    ((compareOfLessAndEq d.specificity.2 b.specificity.2).then
      ((compare d.label.1 b.label.1).then (compare d.label.2 b.label.2))) with
  | .lt => false
  | _ => true

def valueText (d : Directive) : Option (Option String) :=
  (d.field.bind (·.value)).map fun
    | .exact => none
    | .pattern text _ => some text

def sameAs (d b : Directive) : Bool :=
  d.source = b.source && d.span = b.span && d.fieldName = b.fieldName && d.valueText = b.valueText

/-- Whether a value is what is asked for. -/
def Value.admits : Value → String → Bool
  | .exact, _ => false
  | .pattern _ p, text => p.endsIn text.toList

def coversSpan (d : Directive) (s : Span) : Bool :=
  d.isOfSpans && d.isFor s.source (s.fields.map (·.1)) && d.span.all (· = s.name)
    && d.field.all fun f => f.value.all fun v =>
      ((s.fields.lookup f.name).map (Value.admits v)).getD false

end Directive

abbrev Filter := List Directive

namespace Filter

def parts : List Char → List (List Char)
  | [] => [[]]
  | c :: cs =>
    if c = ',' then [] :: parts cs
    else
      match parts cs with
      | p :: ps => (c :: p) :: ps
      | [] => [[c]]

/-- Directives between commas. Empty ones are passed over, and one that cannot be read spoils the
whole filter. -/
def read (text : String) : Except Misread Filter :=
  ((parts text.toList).filter fun p => !p.isEmpty).mapM Directive.read

def effective : List Directive → List Directive
  | [] => []
  | d :: ds => if ds.any d.sameAs then effective ds else d :: effective ds

def choose (f : Filter) (e : Event) : Option Directive :=
  (f.filter fun d => d.coversEvent e).foldl (fun best d =>
    match best with
    | some b => if d.precedes b then some d else some b
    | none => some d) none

/-- The most that any directive shows. Values can only be looked at when there are spans, so all
spans are followed where a directive asks for one. -/
def widest (f : Filter) : Nat :=
  if f.any Directive.hasValue then 5 else f.foldl (fun n d => max n d.verbosity) 0

def verbosityWithin (f : Filter) (s : Span) : Nat :=
  ((effective f).filter fun d => d.coversSpan s).foldl (fun n d => max n d.verbosity) 0

def followsSpans (f : Filter) : Bool := Span.level.verbosity ≤ f.widest

def shows (f : Filter) (e : Event) : Bool :=
  (f.choose e).any (fun d => e.level.verbosity ≤ d.verbosity)
    || (f.followsSpans && e.spans.any fun s => e.level.verbosity ≤ f.verbosityWithin s)

end Filter

end Parley.Log
