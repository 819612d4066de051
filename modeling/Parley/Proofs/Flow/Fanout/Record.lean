import Parley.Flow.Fanout
import Parley.Proofs.Flow.Channel

namespace Parley.Flow.Fanout

variable {α : Type}

inductive Event (α : Type)
  | subscribe (capacity : Nat) (accepts : α → Bool)
  | publish (a : α)
  /-- The publication that is under way goes one step further. -/
  | send
  | receive (id : Nat)
  | drop (id : Nat)
  | close

structure Issue (α : Type) where
  id : Nat
  item : α
  members : List Nat

structure Run (α : Type) where
  fanout : Fanout α := {}
  /-- What each subscriber has asked for: its capacity and its filter. -/
  terms : List (Nat × (α → Bool)) := []
  /-- Who has subscribed since the last close. -/
  members : List Nat := []
  issues : List (Issue α) := []
  received : List (Nat × α) := []
  /-- Which publication was put into whose queue. -/
  deliveries : List (Nat × Nat) := []
  /-- What the publications that have ended have returned. -/
  results : List (Nat × Nat) := []

def grown (f g : Fanout α) : List Nat :=
  (List.range f.subscribers.length).filter fun i =>
    (f.subscriber? i).any fun s => (g.subscriber? i).any fun t =>
      s.queue.queue.length < t.queue.queue.length

def Progress.results (id : Nat) : Progress → List (Nat × Nat)
  | .finished n => [(id, n)]
  | _ => []

theorem results_moved (id : Nat) : Progress.moved.results id = [] := rfl

namespace Run

def step (r : Run α) : Event α → Run α
  | .subscribe n accepts =>
    { r with
      fanout := (r.fanout.subscribe n accepts).1
      terms := r.terms ++ [(n, accepts)]
      members := r.members ++ [(r.fanout.subscribe n accepts).2] }
  | .publish a =>
    match r.fanout.publications with
    | [] => { r with
        fanout := (r.fanout.publish a).1
        issues := r.issues ++ [⟨(r.fanout.publish a).2, a, r.members⟩] }
    | _ => r
  | .send =>
    match r.fanout.publications with
    | [] => r
    | p :: _ =>
      match r.fanout.step? p.id with
      | none => r
      | some (f, pr) => { r with
          fanout := f
          deliveries := r.deliveries ++ (grown r.fanout f).map fun i => (p.id, i)
          results := r.results ++ pr.results p.id }
  | .receive id =>
    match r.fanout.receive id with
    | (f, .item a) => { r with fanout := f, received := r.received ++ [(id, a)] }
    | (f, _) => { r with fanout := f }
  | .drop id => { r with fanout := r.fanout.unsubscribe id }
  | .close => { r with fanout := r.fanout.close, members := [] }

def run (es : List (Event α)) : Run α := es.foldl step {}

def receivedBy (r : Run α) (i : Nat) : List α := (r.received.filter fun x => x.1 = i).map (·.2)

def issued (issues : List (Issue α)) (i : Nat) : List α :=
  (issues.filter fun e => i ∈ e.members).map (·.item)

def ahead (r : Run α) (id : Nat) : List Nat := (r.fanout.publication? id).elim [] (·.ahead)

/-- What was published while a subscriber was subscribed, and has come past it. -/
def passed (r : Run α) (i : Nat) : List α := issued (r.issues.filter fun e => i ∉ r.ahead e.id) i

def delivered (r : Run α) (id : Nat) : Nat := r.deliveries.countP fun x => x.1 = id

end Run

variable {f g : Fanout α} {s : Subscriber α} {i j : Nat}

theorem subscriber?_update (f : Fanout α) (i : Nat) (h : Subscriber α → Subscriber α) (j : Nat) :
    (f.update i h).subscriber? j =
      if i = j then (f.subscriber? j).map h else f.subscriber? j := by
  simp only [update, subscriber?, List.getElem?_modify]
  split
  · rfl
  · simp

theorem subscriber?_map {h : Subscriber α → Subscriber α}
    (hg : g.subscribers = f.subscribers.map h) (j : Nat) :
    g.subscriber? j = (f.subscriber? j).map h := by
  rw [subscriber?, hg, List.getElem?_map]
  rfl

theorem subscriber?_subscribe (f : Fanout α) (n : Nat) (accepts : α → Bool) (j : Nat) :
    (f.subscribe n accepts).1.subscriber? j =
      if j = f.subscribers.length then
        some ⟨f.subscribers.length, accepts, .ofCapacity n, true⟩
      else f.subscriber? j := by
  simp only [subscribe, subscriber?]
  split
  · next h => simp [h]
  · next h =>
    by_cases hj : j < f.subscribers.length
    · rw [List.getElem?_append_left hj]
    · rw [List.getElem?_eq_none (by simp; omega), List.getElem?_eq_none (by omega)]

theorem lt_of_subscriber? (h : f.subscriber? i = some s) : i < f.subscribers.length := by
  obtain ⟨hi, -⟩ := List.getElem?_eq_some_iff.1 h
  exact hi

/-- A publication that goes on offers its item to the next subscriber at most. -/
theorem advance_subscriber (f : Fanout α) (p : Publication α) (i : Nat) :
    ∃ k : Subscriber α → Subscriber α, (f.advance p).1.subscriber? i = (f.subscriber? i).map k ∧
      ∀ s, f.subscriber? i = some s → (k s).queue = s.queue ∨
        p.ahead.head? = some i ∧ (k s).queue = (s.queue.offer p.id p.item).1 := by
  have hsame : f.subscriber? i = (f.subscriber? i).map fun s => s := by simp
  unfold advance
  split
  · refine ⟨_, subscriber?_map rfl i, fun s _ => .inl ?_⟩
    split <;> rfl
  · next id ahead hc =>
    split
    · exact ⟨_, hsame, fun _ _ => .inl rfl⟩
    · next u hu =>
      split
      · have hput : ∃ k : Subscriber α → Subscriber α,
            (f.update id fun s => { s with queue := (u.queue.offer p.id p.item).1 }).subscriber? i =
              (f.subscriber? i).map k ∧ ∀ s, f.subscriber? i = some s → (k s).queue = s.queue ∨
                p.ahead.head? = some i ∧ (k s).queue = (s.queue.offer p.id p.item).1 := by
          rw [subscriber?_update]
          split
          · next he =>
            refine ⟨_, rfl, fun s hs => .inr ⟨by rw [hc, he]; rfl, ?_⟩⟩
            obtain rfl : u = s := Option.some.inj (hu.symm.trans (he ▸ hs))
            rfl
          · exact ⟨_, hsame, fun _ _ => .inl rfl⟩
        dsimp only
        split <;> exact hput
      · exact ⟨_, hsame, fun _ _ => .inl rfl⟩

/-- What a subscriber has been given stays, whatever a publication does. -/
theorem items_advance {p : Publication α} {pr : Progress} (h : f.advance p = (g, pr))
    (hs : f.subscriber? i = some s) : ∃ t, g.subscriber? i = some t ∧
      t.queue.taken = s.queue.taken ∧ s.queue.items <+: t.queue.items := by
  obtain ⟨k, hk, hq⟩ := f.advance_subscriber p i
  rw [h, hs] at hk
  refine ⟨k s, hk, ?_⟩
  rcases hq s hs with hq | ⟨-, hq⟩
  · rw [hq]
    exact ⟨rfl, List.prefix_refl _⟩
  · rw [hq, Channel.items_offer]
    refine ⟨Channel.taken_offer .., ?_⟩
    split
    · exact List.prefix_append _ _
    · exact List.prefix_refl _

theorem advance_of_step? {p : Publication α} {ps : List (Publication α)} {pr : Progress}
    (hp : f.publications = p :: ps) (h : f.step? p.id = some (g, pr)) : f.advance p = (g, pr) := by
  have hfind : f.publication? p.id = some p := by simp [publication?, hp]
  rcases ha : f.advance p with ⟨g', pr'⟩
  simp only [step?, hfind, Option.bind_eq_bind, Option.bind_some, ha] at h
  cases pr' <;> cases h <;> rfl

theorem step?_eq_some {id : Nat} {pr : Progress} (h : f.step? id = some (g, pr)) :
    ∃ p, f.advance p = (g, pr) := by
  simp only [step?, Option.bind_eq_bind, Option.bind_eq_some_iff] at h
  obtain ⟨p, -, h⟩ := h
  refine ⟨p, ?_⟩
  split at h
  · cases h
  · exact Option.some.inj h

theorem step?_of_advance {p : Publication α} {ps : List (Publication α)} {pr : Progress}
    (hp : f.publications = p :: ps) (h : f.advance p = (g, pr)) (hw : pr ≠ .waiting) :
    f.step? p.id = some (g, pr) := by
  have hfind : f.publication? p.id = some p := by simp [publication?, hp]
  simp only [step?, hfind, Option.bind_eq_bind, Option.bind_some, h]
  cases pr <;> simp_all

theorem publications_replace {p q : Publication α} (hp : f.publications = [p]) (hq : q.id = p.id) :
    (f.replace q).publications = [q] := by
  simp [replace, hp, hq]

theorem publications_advance {p : Publication α} {pr : Progress} (hp : f.publications = [p])
    (h : f.advance p = (g, pr)) : (∃ n, pr = .finished n) ∧ g.publications = [] ∨
      (∀ n, pr ≠ .finished n) ∧ ∃ q, g.publications = [q] ∧ q.id = p.id := by
  unfold advance at h
  split at h
  · cases h
    exact .inl ⟨⟨_, rfl⟩, by simp [finish, hp]⟩
  · split at h
    · cases h
      exact .inr ⟨by simp, _, publications_replace hp rfl, rfl⟩
    · split at h
      · dsimp only at h
        split at h
        · cases h
          exact .inr ⟨by simp, _, publications_replace hp rfl, rfl⟩
        · cases h
          exact .inr ⟨by simp, _, publications_replace hp rfl, rfl⟩
        · cases h
          exact .inr ⟨fun n => by split <;> simp, p, hp, rfl⟩
      · cases h
        exact .inr ⟨by simp, _, publications_replace hp rfl, rfl⟩

theorem length_advance {p : Publication α} {pr : Progress} (h : f.advance p = (g, pr)) :
    g.publications.length ≤ f.publications.length := by
  unfold advance at h
  split at h
  · cases h
    exact List.length_filter_le _ _
  · split at h
    · cases h
      simp [replace]
    · split at h
      · dsimp only at h
        split at h <;> cases h <;> simp [replace, update]
      · cases h
        simp [replace]

theorem publications_receive (f : Fanout α) (id : Nat) :
    (f.receive id).1.publications = f.publications := by
  unfold receive
  split
  · rfl
  · split
    · rfl
    · split <;> rfl

theorem not_grown (h : g.subscriber? i = f.subscriber? i) : i ∉ grown f g := by
  intro hm
  rw [grown, List.mem_filter, h] at hm
  cases hs : f.subscriber? i with
  | none => simp [hs] at hm
  | some s => simp [hs] at hm

theorem mem_grown {t : Subscriber α} (hs : f.subscriber? i = some s)
    (ht : g.subscriber? i = some t) :
    i ∈ grown f g ↔ s.queue.queue.length < t.queue.queue.length := by
  simp [grown, hs, ht, lt_of_subscriber? hs]

theorem grown_nodup (f g : Fanout α) : (grown f g).Nodup :=
  List.nodup_range.filter _

theorem grown_of_other (h : ∀ j, j ≠ i → g.subscriber? j = f.subscriber? j) :
    grown f g = if i ∈ grown f g then [i] else [] := by
  have hi : ∀ j ∈ grown f g, j = i := by
    intro j hj
    by_cases he : j = i
    · exact he
    · exact absurd hj (not_grown (h j he))
  have hn := grown_nodup f g
  cases hg : grown f g with
  | nil => rfl
  | cons a l =>
      rw [hg] at hi hn
      obtain rfl := hi a List.mem_cons_self
      rw [if_pos List.mem_cons_self]
      cases l with
      | nil => rfl
      | cons b l =>
          obtain rfl := hi b (by simp)
          simp at hn

end Parley.Flow.Fanout
