import Parley.Proofs.Server.Touches
import Parley.Proofs.Session.Solo

namespace Parley

open Dispatch
open Session (Handle)
open Server (Builtin.script Builtin.changing Builtin.reporting Builtin.sessionReport)

def Program.length : Program → Nat
  | .touch _ next => (next default).length + 1
  | _ => 1

theorem Program.length_pos (p : Program) : 0 < p.length := by
  cases p <;> simp [length]

theorem Server.Builtin.length_changing (ms : Json.Members) (p : Program) :
    (changing ms p).length = ms.length + p.length := by
  induction ms with
  | nil => simp [changing]
  | cons m ms ih =>
      change (changing ms p).length + 1 = _
      rw [ih, List.length_cons]
      omega

namespace Dispatch.Call

def set? (k : Call) : Option Json.Members := Server.Builtin.changes? (.ofOption k.params)

def touch? (ts : Touches) (k : Call) : Option (Nat × Option (String × Json)) :=
  match k.phase with
  | .executing (.running (.touch _ _)) _ _ => k.set?.bind fun set =>
      (Builtin.script set)[(noted ts k.serial).length]?.map (k.serial, ·)
  | _ => none

def isOpen (k : Call) : Bool :=
  match k.phase with
  | .fresh | .executing _ _ _ => true
  | _ => false

def isFresh (k : Call) : Bool :=
  match k.phase with
  | .fresh => true
  | _ => false

/-- How many steps there are at most before the call has its answer to queue. -/
def left (k : Call) : Nat :=
  match k.phase with
  | .fresh => k.set?.elim 0 (·.length + 2) + 3
  | .executing (.running p) _ _ => p.length + 1
  | .executing _ _ _ => 2
  | .concluded _ => 1
  | .replying _ => 0

def Comes (k : Call) (id : SessionId) (ts : Touches) (o : Except HandlerError Json) : Prop :=
  match k.set? with
  | none => o = .error (.invalidParams none) ∧ noted ts k.serial = []
  | some set => ∃ v, o = .ok v ∧ ts.Reports k.serial set id v

structure Keeps (c : ConnectionId) (m : Session.Manager CallName) (k : Call)
    (a : Handle) : Prop where
  hooks : k.commit.hooks = [a]
  held : ((c, k.serial), a) ∈ m.holds

inductive Stands (c : ConnectionId) (m : Session.Manager CallName) (ts : Touches) (k : Call) : Prop
  | fresh (hp : k.phase = .fresh) (hc : k.commit = {}) (hn : noted ts k.serial = [])
  | changing {done todo : Json.Members} {deadline : Option Nat} {a : Handle}
      (hp : k.phase = .executing (.running (Builtin.changing todo Builtin.reporting)) deadline a)
      (hk : k.Keeps c m a) (hs : k.set? = some (done ++ todo))
      (hn : noted ts k.serial = done.map some)
  | looking {before mid : Touches} {set : Json.Members} {s : Session} {deadline : Option Nat}
      {a : Handle}
      (hp : k.phase = .executing (.running
        (.touch id fun s' => .done (Builtin.sessionReport s s'.isStarted))) deadline a)
      (hk : k.Keeps c m a) (hs : k.set? = some set) (ht : ts = before ++ (k.serial, none) :: mid)
      (hb : noted before k.serial = set.map some) (hm : noted mid k.serial = [])
      (hi : s.id = c.session) (ha : s.attributes = before.value)
  | ending {o : Except HandlerError Json} {deadline : Option Nat} {a : Handle}
      (hp : k.phase = .executing (.running (.finish o)) deadline a)
      (hk : k.Keeps c m a) (ho : k.Comes c.session ts o)
  | concluded {o : Except HandlerError Json} {a : Handle} (hp : k.phase = .concluded o)
      (hk : k.Keeps c m a) (ho : k.Comes c.session ts o)
  | replying {t : Ticket TokenName} {o : Except HandlerError Json}
      (hp : k.phase = .replying (answer t.id o)) (ht : k.ticket = some t)
      (ho : k.Comes c.session ts o)

variable {c : ConnectionId} {k : Call} {m m' : Session.Manager CallName} {ts ts' : Touches}
  {o : Except HandlerError Json} {t : Nat × Option (String × Json)} {set : Json.Members}
  {id : SessionId}

theorem noted_look (ts : Touches) (n : Nat) :
    noted ((n, none) :: ts : Touches) n = none :: noted ts n := by
  simp [noted]

theorem isOpen_iff_left : k.isOpen = true ↔ 2 ≤ k.left := by
  unfold isOpen left
  cases k.phase with
  | fresh | concluded | replying => simp
  | executing activity =>
      rcases activity with p | _ | _ | _
      · simpa using Nat.succ_le_iff.2 p.length_pos
      all_goals simp

theorem of_touch? (ht : k.touch? ts = some t) : k.isOpen = true ∧ t.1 = k.serial := by
  unfold touch? at ht
  split at ht
  · next hp =>
    obtain ⟨set, -, hs⟩ := Option.bind_eq_some_iff.1 ht
    obtain ⟨x, -, rfl⟩ := Option.map_eq_some_iff.1 hs
    exact ⟨by simp [isOpen, hp], rfl⟩
  · cases ht

theorem touch?_of_not_open (h : k.isOpen = false) : k.touch? ts = none := by
  by_contra ht
  obtain ⟨t, ht⟩ := Option.ne_none_iff_exists'.1 ht
  exact Bool.false_ne_true (h.symm.trans (of_touch? ht).1)

theorem touch?_of_none (hs : k.set? = none) : k.touch? ts = none := by
  unfold touch?
  split
  · rw [hs]
    rfl
  · rfl

theorem touch?_of_script {edit : Session → Session} {next : Session → Program}
    {deadline : Option Nat} {a : Handle} {x : Option (String × Json)}
    {xs ys : List (Option (String × Json))}
    (hp : k.phase = .executing (.running (.touch edit next)) deadline a) (hs : k.set? = some set)
    (hn : noted ts k.serial = xs) (hx : Builtin.script set = xs ++ x :: ys) :
    k.touch? ts = some (k.serial, x) := by
  simp [touch?, hp, hs, hn, hx]

theorem session_of_none (hs : k.set? = none) (x : Context) :
    Server.Builtin.session x k.params = .fail (.invalidParams none) := by
  rw [set?] at hs
  simp only [Server.Builtin.session, Handler.typed, hs]

theorem session_of_some (hs : k.set? = some set) (x : Context) :
    Server.Builtin.session x k.params = Builtin.changing set Builtin.reporting := by
  rw [set?] at hs
  simp only [Server.Builtin.session, Handler.typed, hs]

theorem comes_of_none (hs : k.set? = none) :
    k.Comes id ts o ↔ o = .error (.invalidParams none) ∧ noted ts k.serial = [] := by
  simp only [Comes, hs]

theorem comes_of_some (hs : k.set? = some set) :
    k.Comes id ts o ↔ ∃ v, o = .ok v ∧ ts.Reports k.serial set id v := by
  simp only [Comes, hs]

theorem Comes.append (h : k.Comes id ts o) (hn : noted ts' k.serial = []) :
    k.Comes id (ts ++ ts') o := by
  cases hs : k.set? with
  | none =>
      rw [comes_of_none hs] at h ⊢
      exact ⟨h.1, by rw [noted_append, h.2, hn, List.append_nil]⟩
  | some set =>
      rw [comes_of_some hs] at h ⊢
      exact h.imp fun _ hv => ⟨hv.1, hv.2.append hn⟩

theorem Comes.noted (h : k.Comes id ts o) (hs : k.set? = some set) :
    noted ts k.serial = Builtin.script set := by
  obtain ⟨_, -, hv⟩ := (comes_of_some hs).1 h
  exact hv.noted

namespace Stands

/-- The others go on, and hold what they hold. -/
theorem aside (h : k.Stands c m ts) (hn : noted ts' k.serial = [])
    (hm : ∀ a, ((c, k.serial), a) ∈ m.holds → ((c, k.serial), a) ∈ m'.holds) :
    k.Stands c m' (ts ++ ts') := by
  have hkeep {a : Handle} (hk : k.Keeps c m a) : k.Keeps c m' a := ⟨hk.hooks, hm a hk.held⟩
  have hnoted : noted (ts ++ ts') k.serial = noted ts k.serial := by
    rw [noted_append, hn, List.append_nil]
  cases h with
  | fresh hp hc hl => exact .fresh hp hc (hnoted.trans hl)
  | changing hp hk hs hl => exact .changing hp (hkeep hk) hs (hnoted.trans hl)
  | @looking before mid set s deadline a hp hk hs ht hb hmid hi ha =>
      have hts : ts ++ ts' = before ++ (k.serial, none) :: (mid ++ ts') := by simp [ht]
      refine .looking hp (hkeep hk) hs hts hb ?_ hi ha
      rw [noted_append, hmid, hn, List.append_nil]
  | ending hp hk ho => exact .ending hp (hkeep hk) (ho.append hn)
  | concluded hp hk ho => exact .concluded hp (hkeep hk) (ho.append hn)
  | replying hp ht ho => exact .replying hp ht (ho.append hn)

theorem follows (h : k.Stands c m ts) (hs : k.set? = some set) :
    noted ts k.serial <+: Builtin.script set := by
  cases h with
  | fresh _ _ hn => exact hn ▸ List.nil_prefix
  | changing _ _ hs' hn =>
      cases hs.symm.trans hs'
      exact ⟨_, by rw [hn, Builtin.script, List.map_append, List.append_assoc]⟩
  | looking _ _ hs' ht hb hm =>
      cases hs.symm.trans hs'
      rw [ht, noted_append, hb, noted_look, hm]
      exact ⟨[none], by simp [Builtin.script]⟩
  | ending _ _ ho | concluded _ _ ho | replying _ _ ho => exact (ho.noted hs).symm ▸ List.prefix_rfl

/-- A call whose handler has come to an end has done all that it was asked for. -/
theorem noted_of_over (h : k.Stands c m ts) (hs : k.set? = some set) (ho : k.isOpen = false) :
    noted ts k.serial = Builtin.script set := by
  cases h with
  | fresh hp | changing hp | looking hp | ending hp => simp [isOpen, hp] at ho
  | concluded _ _ hc | replying _ _ hc => exact hc.noted hs

end Stands

end Dispatch.Call

end Parley
