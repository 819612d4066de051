import Parley.Proofs.Json.Order
import Parley.Proofs.Session.Calm
import Parley.Proofs.Session.Run

namespace Parley.Session

namespace Act

def edit : Act → Json.Members → Json.Members
  | set name v, ms => Json.insert name v ms
  | remove name, ms => Json.erase name ms
  | _, ms => ms

def change? : Act → Option (String × Option Json)
  | set name v => some (name, some v)
  | remove name => some (name, none)
  | _ => none

theorem attributes_run (act : Act) (x : Session) : (act.run x).attributes = act.edit x.attributes := by
  cases act <;> rfl

theorem result_congr {x y : Session} (h : x.attributes = y.attributes) (act : Act) :
    act.result x = act.result y := by
  cases act <;> simp [result, Session.attribute?, h]

theorem lookup_edit {act : Act} {n : String} {w : Option Json} (h : act.change? = some (n, w))
    (ms : Json.Members) : (act.edit ms).lookup n = w := by
  cases act <;> cases h
  · exact (Json.lookup_insert _ _ _ ms).trans (if_pos rfl)
  · exact (Json.lookup_erase _ _ ms).trans (if_pos rfl)

theorem lookup_edit_of_ne {act : Act} {n : String} (h : ∀ w, act.change? ≠ some (n, w))
    (ms : Json.Members) : (act.edit ms).lookup n = ms.lookup n := by
  cases act with
  | set k v => exact (Json.lookup_insert k n v ms).trans (if_neg fun he => h (some v) (by rw [he]; rfl))
  | remove k => exact (Json.lookup_erase k n ms).trans (if_neg fun he => h none (by rw [he]; rfl))
  | _ => rfl

end Act

/-- What an event answers. -/
inductive Reply
  | session (id : SessionId) (attributes : Json.Members)
  | result (v : Json)
  | refused (e : SessionError)
  | nothing
  deriving DecidableEq

structure Board (κ : Type) where
  attributes : SessionId → Json.Members := fun _ => []
  holds : List (Holder κ × SessionId) := []
  saved : List SessionId := []
  closed : κ → Bool := fun _ => false

namespace Board

variable {κ : Type} [DecidableEq κ] {b : Board κ} {id : SessionId} {e : Event κ}

def Live (b : Board κ) (id : SessionId) : Prop := id ∈ b.saved ∨ id ∈ b.holds.map Prod.snd

instance (b : Board κ) (id : SessionId) : Decidable (b.Live id) :=
  inferInstanceAs (Decidable (_ ∨ _))

def settle (b : Board κ) : Board κ :=
  { b with attributes := fun id => if b.Live id then b.attributes id else [] }

def hold (b : Board κ) (who : Holder κ) (id : SessionId) : Board κ :=
  { b with holds := b.holds ++ [(who, id)] }

def release (b : Board κ) (who : Holder κ) : Board κ :=
  { b with holds := b.holds.filter fun h => h.1 ≠ who }

def heldBy (b : Board κ) (who : Holder κ) : List SessionId :=
  (b.holds.filter fun h => h.1 = who).map Prod.snd

/-- A commit saves what the call holds, where there is something to save. -/
def save (b : Board κ) (call : κ) : Board κ :=
  { b with saved := b.saved ++ (b.heldBy (.call call)).filter fun id => !(b.attributes id).isEmpty }

def setClosed (b : Board κ) (call : κ) (closed : Bool) : Board κ :=
  { b with closed := Function.update b.closed call closed }

theorem setClosed_self {call : κ} {closed : Bool} (h : b.closed call = closed) :
    b.setClosed call closed = b := by
  rw [setClosed, ← h, Function.update_eq_self]

def chosen (b : Board κ) (ids : List SessionId) (spare : SessionId) : SessionId :=
  Manager.chosen b.saved ids spare

def resolve (b : Board κ) (call user : κ) (id : SessionId) : Board κ :=
  let b := (b.release (.user user)).hold (.user user) id
  if b.closed call then b else b.hold (.call call) id

def act (b : Board κ) (id : SessionId) (a : Act) : Board κ :=
  { b with attributes := Function.update b.attributes id (a.edit (b.attributes id)) }

omit [DecidableEq κ] in
theorem attributes_act (b : Board κ) (i : SessionId) (a : Act) :
    (b.act i a).attributes id = if id = i then a.edit (b.attributes i) else b.attributes id :=
  Function.update_apply ..

def next (b : Board κ) : Event κ → Board κ
  | .resolve call user ids spare _ => (b.resolve call user (b.chosen ids spare)).settle
  | .act user a => ((b.holds.lookup (.user user)).map fun id => b.act id a).getD b
  | .commit call _ =>
    if b.closed call then b else ((b.save call).release (.call call)).setClosed call true |>.settle
  | .drop call => (b.release (.call call)).setClosed call false |>.settle
  | .letGo user => (b.release (.user user)).settle
  | .evict _ | .remove _ => b

def reply (b : Board κ) : Event κ → Reply
  | .resolve _ _ ids spare _ => .session (b.chosen ids spare) (b.attributes (b.chosen ids spare))
  | .act user a =>
    ((b.holds.lookup (.user user)).map fun id =>
      Reply.result (a.result { id, attributes := b.attributes id })).getD .nothing
  | _ => .nothing

def run (b : Board κ) (es : List (Event κ)) : Board κ := es.foldl next b

def replies (b : Board κ) : List (Event κ) → List Reply
  | [] => []
  | e :: es => b.reply e :: (b.next e).replies es

@[simp] theorem run_nil : b.run [] = b := rfl

@[simp] theorem run_cons (e : Event κ) (es : List (Event κ)) :
    b.run (e :: es) = (b.next e).run es := rfl

@[simp] theorem run_append (es es' : List (Event κ)) : b.run (es ++ es') = (b.run es).run es' :=
  List.foldl_append

theorem saved_next (h : id ∈ b.saved) (e : Event κ) : id ∈ (b.next e).saved := by
  cases e with
  | resolve call user ids spare now =>
      simp only [next, resolve, settle]
      split <;> exact h
  | act user a =>
      simp only [next]
      cases b.holds.lookup (.user user) <;> exact h
  | commit call now =>
      simp only [next]
      split
      · exact h
      · exact List.mem_append_left _ h
  | _ => exact h

theorem saved_run {es : List (Event κ)} (h : id ∈ b.saved) : id ∈ (b.run es).saved := by
  induction es generalizing b with
  | nil => exact h
  | cons e es ih => exact ih (saved_next h e)

theorem attributes_next (b : Board κ) (e : Event κ) (id : SessionId) :
    (∃ user act, e = .act user act ∧ b.holds.lookup (.user user) = some id ∧
      (b.next e).attributes id = act.edit (b.attributes id)) ∨
    (b.next e).attributes id = b.attributes id ∨
    (b.next e).attributes id = [] ∧ ¬(b.next e).Live id := by
  -- Besides acts, only settling touches the maps.
  have hsettle {c : Board κ} (hc : c.attributes = b.attributes) :
      c.settle.attributes id = b.attributes id ∨ c.settle.attributes id = [] ∧ ¬c.settle.Live id := by
    by_cases hl : c.Live id
    · exact .inl ((if_pos hl).trans (congrFun hc id))
    · exact .inr ⟨if_neg hl, hl⟩
  cases e with
  | resolve call user ids spare now =>
      refine .inr (hsettle ?_)
      simp only [resolve]
      split <;> rfl
  | act user a =>
      simp only [next]
      cases hu : b.holds.lookup (.user user) with
      | none => exact .inr (.inl rfl)
      | some i =>
          by_cases hi : i = id
          · subst hi
            exact .inl ⟨user, a, rfl, hu, (attributes_act b i a).trans (if_pos rfl)⟩
          · exact .inr (.inl ((attributes_act b i a).trans (if_neg (Ne.symm hi))))
  | commit call now =>
      simp only [next]
      split
      · exact .inr (.inl rfl)
      · exact .inr (hsettle rfl)
  | drop call => exact .inr (hsettle rfl)
  | letGo user => exact .inr (hsettle rfl)
  | evict now => exact .inr (.inl rfl)
  | remove i => exact .inr (.inl rfl)

end Board

end Parley.Session
