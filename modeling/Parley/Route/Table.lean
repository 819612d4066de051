namespace Parley.Route

structure Condition where
  names : List String
  nodup : names.Nodup := by simp
  deriving DecidableEq, Repr

namespace Condition

def any : Condition := ⟨[], .nil⟩

instance : Inhabited Condition := ⟨any⟩

theorem nodup_add {names : List String} (h : names.Nodup) {name : String} (hn : name ∉ names) :
    (names ++ [name]).Nodup := by
  rw [List.nodup_append]
  refine ⟨h, by simp, ?_⟩
  intro a ha b hb
  rw [List.mem_singleton] at hb
  subst hb
  exact fun he => hn (he ▸ ha)

def add (c : Condition) (name : String) : Condition :=
  if h : name ∈ c.names then c else ⟨c.names ++ [name], nodup_add c.nodup h⟩

def ofList (names : List String) : Condition := names.foldl add any

/-- The names of a surrounding condition, then those of an inner one. -/
def combine (outer inner : Condition) : Condition := inner.names.foldl add outer

def isAny (c : Condition) : Bool := c.names.isEmpty

def lists (c : Condition) (method : String) : Bool := method ∈ c.names

def admits (c : Condition) (method : String) : Bool := c.isAny || c.lists method

def compare (a b : Condition) : Ordering :=
  match a.isAny, b.isAny with
  | true, true => .eq
  | true, false => .gt
  | false, true => .lt
  | false, false => Ord.compare a.names.length b.names.length

def display (c : Condition) : String :=
  if c.isAny then "*" else "\x7b" ++ String.intercalate ", " c.names ++ "\x7d"

end Condition

/-- All that is asked of a message before a handler gets it. -/
structure Mapping where
  methods : Condition
  deriving DecidableEq, Repr, Inhabited

namespace Mapping

def any : Mapping := ⟨.any⟩
def ofMethods (names : List String) : Mapping := ⟨.ofList names⟩
def ofMethod (name : String) : Mapping := ofMethods [name]
def combine (outer inner : Mapping) : Mapping := ⟨outer.methods.combine inner.methods⟩
def admits (m : Mapping) (method : String) : Bool := m.methods.admits method
def compare (a b : Mapping) : Ordering := a.methods.compare b.methods
def display (m : Mapping) : String := m.methods.display

end Mapping

end Parley.Route

namespace Parley.Route

inductive TieBreak
  | reject
  | firstRegistered
  deriving DecidableEq, Repr, Inhabited

/-- Why a method has no handler. -/
inductive Error
  | notFound (method : String)
  | ambiguous (method : String) (candidates : List String)
  deriving DecidableEq, Repr

def Error.message : Error → String
  | notFound method => "no handler for method " ++ method
  | ambiguous method candidates =>
    "ambiguous handler mapping for " ++ method ++ ": " ++ String.intercalate " | " candidates

structure Table (α : Type) where
  tieBreak : TieBreak := .reject
  entries : List (Mapping × α) := []
  deriving Inhabited

namespace Table

variable {α : Type}

def register (t : Table α) (m : Mapping) (handler : α) : Table α :=
  { t with entries := t.entries ++ [(m, handler)] }

def registerScoped (t : Table α) (scope m : Mapping) (handler : α) : Table α :=
  t.register (scope.combine m) handler

def ranked (t : Table α) (method : String) : List (Mapping × α) :=
  (t.entries.filter fun e => e.1.admits method).mergeSort fun a b => a.1.compare b.1 != .gt

def resolve (t : Table α) (method : String) : Except Error α :=
  match t.ranked method with
  | [] => .error (.notFound method)
  | [best] => .ok best.2
  | best :: next :: rest =>
    if best.1.compare next.1 = .eq ∧ t.tieBreak = .reject then
      let tied := (best :: next :: rest).takeWhile fun e => best.1.compare e.1 = .eq
      .error (.ambiguous method (tied.map fun e => e.1.display))
    else .ok best.2

def methods (t : Table α) : List String :=
  ((t.entries.flatMap fun e => e.1.methods.names).mergeSort fun a b => decide (a ≤ b)).eraseReps

def hasMethod (t : Table α) (method : String) : Bool := t.entries.any fun e => e.1.admits method

def size (t : Table α) : Nat := t.entries.length

end Table

end Parley.Route
