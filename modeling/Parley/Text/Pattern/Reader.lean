import Parley.Text.Alphanumeric
import Parley.Text.Pattern.Basic
import Parley.Text.Split

namespace Parley.Text.Pattern

inductive Flag
  | caseless
  | multiline
  | dotAll
  | lazy
  | unicode
  | anyLine
  | spaced
  deriving DecidableEq, Repr

def Flag.ofChar? : Char → Option Flag
  | 'i' => some caseless
  | 'm' => some multiline
  | 's' => some dotAll
  | 'U' => some lazy
  | 'u' => some unicode
  | 'R' => some anyLine
  | 'x' => some spaced
  | _ => none

abbrev Flags := List Flag

namespace Flags

def initial : Flags := [.unicode]

def on (fs : Flags) (f : Flag) : Bool := f ∈ fs

def set (fs : Flags) (f : Flag) (value : Bool) : Flags :=
  let rest := fs.filter (· ≠ f)
  if value then f :: rest else rest

end Flags

/-- Pass over blanks and comments where patterns are spaced out. A comment goes to the end of its
line. -/
def skip (fs : Flags) : Bool → List Char → List Char
  | _, [] => []
  | true, c :: cs => skip fs (c ≠ '\n') cs
  | false, c :: cs =>
    if fs.on .spaced && isBlank c then skip fs false cs
    else if fs.on .spaced && c = '#' then skip fs true cs
    else c :: cs

def pass (fs : Flags) (cs : List Char) : List Char := skip fs false cs

/-- Characters, whether there are none, and how they have been written: as how many items, and how
deep these are nested. -/
structure Class where
  accepts : Char → Bool := fun _ => false
  bare : Bool := true
  items : Nat := 0
  nesting : Nat := 0

/-- How deep something is nested that is made of `count` parts. What stands alone is not nested. -/
def depth (count deepest : Nat) : Nat := if count ≤ 1 then deepest else deepest + 1

def Class.depth (k : Class) : Nat := Pattern.depth k.items k.nesting

def Class.count (k : Class) (nesting : Nat) : Class :=
  { k with items := k.items + 1, nesting := max k.nesting nesting }

inductive Operation
  | both
  | without
  | exactlyOne

def Operation.apply (o : Operation) (a b : Class) : Class :=
  let combine : Bool → Bool → Bool := match o with
    | both => fun x y => x && y
    | without => fun x y => x && !y
    | exactlyOne => fun x y => x != y
  { accepts := fun c => combine (a.accepts c) (b.accepts c)
    bare := a.bare && b.bare
    items := 1
    nesting := max a.depth b.depth + 1 }

def swapCase (c : Char) : Char := if c.isLower then c.toUpper else c.toLower

def Class.add? (fs : Flags) (k : Class) (accepts : Char → Bool) : Option Class :=
  if fs.on .caseless then
    if fs.on .unicode then none
    else some { k with
      accepts := fun c => k.accepts c || accepts c || (c.isAlpha && accepts (swapCase c))
      bare := false }
  else some { k with accepts := fun c => k.accepts c || accepts c, bare := false }

def Class.negated? (fs : Flags) (k : Class) : Option Class :=
  if fs.on .unicode then some { k with accepts := fun c => !k.accepts c, bare := false } else none

def asciiClass? : String → Option (Char → Bool)
  | "alnum" => some Char.isAlphanum
  | "alpha" => some Char.isAlpha
  | "ascii" => some fun c => c.toNat < 0x80
  | "blank" => some fun c => c = ' ' || c = '\t'
  | "cntrl" => some fun c => c.toNat < 0x20 || c = '\x7f'
  | "digit" => some Char.isDigit
  | "graph" => some fun c => '!' ≤ c && c ≤ '~'
  | "lower" => some Char.isLower
  | "print" => some fun c => ' ' ≤ c && c ≤ '~'
  | "punct" => some fun c => '!' ≤ c && c ≤ '~' && !c.isAlphanum
  | "space" => some fun c => c = ' ' || ('\t' ≤ c && c ≤ '\r')
  | "upper" => some Char.isUpper
  | "word" => some Place.isWord
  | "xdigit" => some fun c => c.isDigit || ('a' ≤ c && c ≤ 'f') || ('A' ≤ c && c ≤ 'F')
  | _ => none

inductive Escaped
  | literal (c : Char) (byte : Bool)
  | place (p : Place)
  | family (accepts : Char → Bool)

def hexDigit? (c : Char) : Option Nat :=
  if c.isDigit then some (c.toNat - 48)
  else if 'a' ≤ c ∧ c ≤ 'f' then some (c.toNat - 87)
  else if 'A' ≤ c ∧ c ≤ 'F' then some (c.toNat - 55)
  else none

def hex? (fs : Flags) : Nat → Nat → List Char → Option (Nat × List Char)
  | 0, n, cs => some (n, cs)
  | count + 1, n, cs =>
    match pass fs cs with
    | c :: cs => (hexDigit? c).bind fun d => hex? fs count (n * 16 + d) cs
    | [] => none

def codePoint? (fs : Flags) (count : Nat) (cs : List Char) : Option (Escaped × List Char) := do
  let (n, cs) ← hex? fs count 0 cs
  if Nat.isValidChar n then some (.literal (Char.ofNat n) (count = 2), pass fs cs) else none

def isEscapable (c : Char) : Bool := c.toNat < 0x80 && !c.isAlphanum && c ≠ '<' && c ≠ '>'

def inAscii (fs : Flags) (e : Escaped) (cs : List Char) : Option (Escaped × List Char) :=
  if fs.on .unicode then none else some (e, cs)

def escaped? (fs : Flags) : List Char → Option (Escaped × List Char)
  | [] => none
  | c :: cs =>
    let literal (c : Char) : Option (Escaped × List Char) := some (.literal c false, cs)
    match c with
    | 'x' => codePoint? fs 2 cs
    | 'u' => codePoint? fs 4 cs
    | 'U' => codePoint? fs 8 cs
    | 'a' => literal '\x07'
    | 'f' => literal '\x0c'
    | 't' => literal '\t'
    | 'n' => literal '\n'
    | 'r' => literal '\r'
    | 'v' => literal '\x0b'
    | 'A' => some (.place .start, cs)
    | 'z' => some (.place .stop, cs)
    | 'b' => inAscii fs (.place .wordEdge) cs
    | 'B' => inAscii fs (.place .noWordEdge) cs
    | '<' => inAscii fs (.place .wordStart) cs
    | '>' => inAscii fs (.place .wordStop) cs
    | 'd' => inAscii fs (.family Char.isDigit) cs
    | 's' => inAscii fs (.family fun c => c = ' ' || ('\t' ≤ c && c ≤ '\r')) cs
    | 'w' => inAscii fs (.family Place.isWord) cs
    | c => if isEscapable c then literal c else none

/-- A bracket that is open: what there is in it since the last operation, and before that the
operation with its left side. -/
structure Level where
  negated : Bool
  pending : Option (Operation × Class) := none
  items : Class := {}

def Level.content (l : Level) : Class :=
  match l.pending with
  | some (o, a) => o.apply a l.items
  | none => l.items

def Level.operate (l : Level) (o : Operation) : Level :=
  { l with pending := some (o, l.content), items := {} }

def Level.add? (fs : Flags) (l : Level) (accepts : Char → Bool) : Option Level :=
  (l.items.add? fs accepts).map fun items => { l with items := items.count 0 }

def Level.include? (fs : Flags) (l : Level) (k : Class) : Option Level :=
  (if k.bare then some l.items else l.items.add? fs k.accepts).map fun items =>
    { l with items := items.count k.nesting }

def Level.close? (fs : Flags) (l : Level) : Option Class :=
  let k := { l.content with items := 1, nesting := l.content.depth + 1 }
  if l.negated then k.negated? fs else some k

def single? (fs : Flags) : Escaped → Option Char
  | .literal c _ => if fs.on .unicode || c.toNat < 0x80 then some c else none
  | _ => none

def item? (fs : Flags) : List Char → Option (Escaped × List Char)
  | [] => none
  | '\\' :: cs => escaped? fs cs
  | c :: cs => some (.literal c false, cs)

def family? (fs : Flags) : Escaped → Option (Char → Bool)
  | .family accepts => some accepts
  | e => (single? fs e).map fun c x => x = c

/-- One item, or a range of characters. A dash before the end or before a dash is no range. -/
def range? (fs : Flags) (cs : List Char) : Option ((Char → Bool) × List Char) := do
  let (e, cs) ← item? fs cs
  let alone (cs : List Char) := (family? fs e).map fun accepts => (accepts, cs)
  match pass fs cs with
  | [] => none
  | '-' :: cs =>
    match (pass fs cs).head? with
    | some ']' | some '-' => alone ('-' :: cs)
    | _ =>
      let (e', cs) ← item? fs (pass fs cs)
      let lo ← single? fs e
      let hi ← single? fs e'
      if lo ≤ hi then some (fun c => lo ≤ c && c ≤ hi, cs) else none
  | cs => alone cs

def dashes? (fs : Flags) : Nat → Level → List Char → Option (Level × List Char)
  | fuel + 1, l, '-' :: cs => do dashes? fs fuel (← l.add? fs (· = '-')) (pass fs cs)
  | _, l, cs => some (l, cs)

def open? (fs : Flags) (cs : List Char) : Option (Level × List Char) := do
  let (negated, cs) := match pass fs cs with
    | '^' :: cs => (true, pass fs cs)
    | cs => (false, cs)
  let (l, cs) ← dashes? fs cs.length ⟨negated, none, {}⟩ cs
  if l.items.bare && cs.head? = some ']' then
    return (← l.add? fs (· = ']'), pass fs cs.tail)
  else return (l, cs)

def named? (cs : List Char) : Option ((Char → Bool) × Bool × List Char) :=
  match cs with
  | ':' :: cs =>
    let (negated, cs) := match cs with
      | '^' :: cs => (true, cs)
      | cs => (false, cs)
    match cs.dropWhile (· ≠ ':') with
    | ':' :: ']' :: rest =>
      (asciiClass? (String.ofList (cs.takeWhile (· ≠ ':')))).map fun k => (k, negated, rest)
    | _ => none
  | _ => none

def class? (fs : Flags) : Nat → Level → List Level → List Char → Option (Class × List Char)
  | 0, _, _, _ => none
  | fuel + 1, l, outer, cs =>
    match pass fs cs with
    | [] => none
    | '[' :: cs =>
      match named? cs with
      | some (accepts, negated, cs) => do
        let k : Class := { accepts, bare := false }
        let k ← if negated then k.negated? fs else some k
        class? fs fuel (← l.add? fs k.accepts) outer cs
      | none => do
        let (inner, cs) ← open? fs cs
        class? fs fuel inner (l :: outer) cs
    | ']' :: cs => do
      let k ← l.close? fs
      match outer with
      | [] => some (k, cs)
      | o :: outer => class? fs fuel (← o.include? fs k) outer cs
    | '&' :: '&' :: cs => class? fs fuel (l.operate .both) outer cs
    | '-' :: '-' :: cs => class? fs fuel (l.operate .without) outer cs
    | '~' :: '~' :: cs => class? fs fuel (l.operate .exactlyOne) outer cs
    | cs => do
      let (accepts, cs) ← range? fs cs
      class? fs fuel (← l.add? fs accepts) outer cs

/-- A pattern, and how deep it is nested. What only sets flags is no pattern. -/
structure Item where
  pattern? : Option Pattern
  nesting : Nat := 0

def Item.pattern (i : Item) : Pattern := i.pattern?.getD empty

def deepest : Nat := 250

def together (is : List Item) : Nat := depth is.length (is.foldl (fun n i => max n i.nesting) 0)

/-- A group that is open. What has been read of the last alternative has its last item first, and
the alternatives have their last one first. -/
structure Group where
  flags : Flags
  branches : List Item := []
  items : List Item := []

def Group.push (g : Group) (i : Item) : Group := { g with items := i :: g.items }

def Group.branch (g : Group) : Item :=
  ⟨some (sequence (g.items.reverse.filterMap Item.pattern?)), together g.items⟩

def Group.content (g : Group) : Item :=
  ⟨some (g.branches.foldl (fun a b => either b.pattern a) g.branch.pattern),
    together (g.branch :: g.branches)⟩

def Group.next (g : Group) : Group := { g with branches := g.branch :: g.branches, items := [] }

/-- Flags, those after a dash to be switched off, up to the mark that ends them. None is given
twice, and a dash is followed by one at least. -/
def flags? : Nat → Bool → List Flag → Flags → List Char → Option (Flags × Bool × List Char)
  | 0, _, _, _, _ => none
  | _, _, _, _, [] => none
  | fuel + 1, off, seen, fs, c :: cs =>
    match c with
    | ':' => some (fs, false, cs)
    | ')' => if seen.isEmpty then none else some (fs, true, cs)
    | '-' =>
      if off || cs.head? = some ':' || cs.head? = some ')' then none
      else flags? fuel true seen fs cs
    | c => do
      let f ← Flag.ofChar? c
      if f ∈ seen then none else flags? fuel off (f :: seen) (fs.set f !off) cs

def name? (cs : List Char) : Option (List Char × List Char) :=
  let rest := cs.dropWhile (· ≠ '>')
  match cs.takeWhile (· ≠ '>'), rest with
  | c :: name, '>' :: cs =>
    let inName (c : Char) : Bool := c = '_' || c = '.' || c = '[' || c = ']' || isAlphanumeric c
    if (c = '_' || isAlphabetic c) && name.all inName then some (c :: name, cs) else none
  | _, _ => none

structure Reading where
  group : Group := { flags := .initial }
  outer : List Group := []
  names : List (List Char) := []

namespace Reading

def flags (r : Reading) : Flags := r.group.flags

def setGroup (r : Reading) (g : Group) : Reading := { r with group := g }

def push (r : Reading) (i : Item) : Reading := r.setGroup (r.group.push i)

def add (r : Reading) (a : Pattern) : Reading := r.push ⟨a, 0⟩

def enter (r : Reading) (fs : Flags) : Reading :=
  { r with group := { flags := fs }, outer := r.group :: r.outer }

def opened? (r : Reading) (cs : List Char) : Option (Reading × List Char) :=
  let named (cs : List Char) : Option (Reading × List Char) := do
    let (name, cs) ← name? cs
    if name ∈ r.names then none
    else some ({ r.enter r.flags with names := name :: r.names }, cs)
  match pass r.flags cs with
  | '?' :: 'P' :: '<' :: cs => named cs
  | '?' :: '<' :: cs => named cs
  | '?' :: cs =>
    match flags? (cs.length + 1) false [] r.flags cs with
    | some (fs, true, cs) =>
      some ((r.setGroup { r.group with flags := fs }).push ⟨none, 0⟩, cs)
    | some (fs, false, cs) => some (r.enter fs, cs)
    | none => none
  | cs => some (r.enter r.flags, cs)

def closed? (r : Reading) : Option Reading :=
  match r.outer with
  | [] => none
  | g :: outer =>
    let content := r.group.content
    some { r with group := g.push ⟨content.pattern, content.nesting + 1⟩, outer }

def repeated? (r : Reading) (repetition : Bool → Pattern → Pattern) (cs : List Char) :
    Option (Reading × List Char) :=
  match r.group.items with
  | ⟨some a, nesting⟩ :: items =>
    let (turned, cs) := match cs with
      | '?' :: cs => (true, cs)
      | cs => (false, cs)
    let greedy := turned == r.flags.on .lazy
    let i : Item := ⟨repetition greedy a, nesting + 1⟩
    some (r.setGroup { r.group with items := i :: items }, cs)
  | _ => none

def literal? (fs : Flags) (c : Char) (byte : Bool) : Option Pattern :=
  if !fs.on .unicode && byte && 0x80 ≤ c.toNat then none
  else if fs.on .caseless then
    if fs.on .unicode then none
    else some (.one fun x => x = c || (c.isAlpha && x = swapCase c))
  else some (.char c)

def dot? (fs : Flags) : Option Pattern :=
  if !fs.on .unicode then none
  else if fs.on .dotAll then some (.one fun _ => true)
  else if fs.on .anyLine then some (.one fun c => c ≠ '\n' && c ≠ '\r')
  else some (.one fun c => c ≠ '\n')

def lineStart (fs : Flags) : Place :=
  if !fs.on .multiline then .start else if fs.on .anyLine then .anyLineStart else .lineStart

def lineStop (fs : Flags) : Place :=
  if !fs.on .multiline then .stop else if fs.on .anyLine then .anyLineStop else .lineStop

def ofEscaped? (fs : Flags) : Escaped → Option Pattern
  | .literal c byte => literal? fs c byte
  | .place p => some (.place p)
  | .family accepts => some (.one accepts)

def step? (r : Reading) (c : Char) (cs : List Char) : Option (Reading × List Char) :=
  let fs := r.flags
  match c with
  | '(' => r.opened? cs
  | ')' => r.closed?.map (·, cs)
  | '|' => some (r.setGroup r.group.next, cs)
  | '[' => do
    let (l, cs) ← open? fs cs
    let (k, cs) ← class? fs (cs.length + 1) l [] cs
    some (r.push ⟨some (.one k.accepts), k.nesting⟩, cs)
  | '?' => r.repeated? .optional cs
  | '*' => r.repeated? many cs
  | '+' => r.repeated? .repeated cs
  | '{' => none
  | '\\' => do
    let (e, cs) ← escaped? fs cs
    some (r.add (← ofEscaped? fs e), cs)
  | '.' => (dot? fs).map fun a => (r.add a, cs)
  | '^' => some (r.add (.place (lineStart fs)), cs)
  | '$' => some (r.add (.place (lineStop fs)), cs)
  | c => (literal? fs c false).map fun a => (r.add a, cs)

def steps? : Nat → Reading → List Char → Option Pattern
  | 0, _, _ => none
  | fuel + 1, r, cs =>
    match pass r.flags cs with
    | [] =>
      let content := r.group.content
      if r.outer.isEmpty && content.nesting ≤ deepest then some content.pattern else none
    | c :: cs => (r.step? c cs).bind fun (r, cs) => steps? fuel r cs

end Reading

def read? (cs : List Char) : Option Pattern := Reading.steps? (cs.length + 1) {} cs

end Parley.Text.Pattern
