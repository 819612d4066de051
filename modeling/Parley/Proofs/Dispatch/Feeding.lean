import Parley.Proofs.Dispatch.Footprint
import Parley.Proofs.Flow.Fanout.Exact

namespace Parley.Dispatch

open Parley.Flow (Fanout)
open Parley.Flow.Fanout (Event Run)

def wants (pump : Nat) (m : Message) : Bool :=
  if pump = Link.requestQueue then !m.isResponse else m.isResponse

theorem wants_responseQueue (m : Message) :
    wants Link.responseQueue m = !wants Link.requestQueue m := by
  cases hm : m.isResponse <;> simp [wants, Link.requestQueue, Link.responseQueue, hm]

def pumps : List Nat := [Link.requestQueue, Link.responseQueue]

def got : Fanout.Received Message → List Message
  | .item m => [m]
  | _ => []

def Stands (f : Fanout Message) : Reader → Prop
  | .publishing id => ∃ p, f.publications = [p] ∧ p.id = id
  | .reading | .done => f.publications = []

structure Fed (r : Run Message) (f : Fanout Message) (reader : Reader)
    (taken read : List Message) : Prop where
  sound : r.Sound
  fanout : r.fanout = f
  terms : r.terms.map (·.2) = [wants Link.requestQueue, wants Link.responseQueue]
  members : reader ≠ .done → r.members = pumps
  audience : ∀ e ∈ r.issues, e.members = pumps
  shut : ∀ i s, r.fanout.subscriber? i = some s → s.queue.shut = false
  read : r.issues.map (·.item) = read
  taken : r.receivedBy Link.requestQueue = taken
  stands : Stands f reader

/-- A pump has been given what is for it of the messages that have come past it. Those are all that
have been read, or all but the last. -/
structure Heard (f : Fanout Message) (pump : Nat) (taken read passed : List Message) : Prop where
  given : ∃ s, f.subscriber? pump = some s ∧ s.queue.shut = false ∧
    (pump = Link.requestQueue → s.queue.taken.reverse = taken) ∧
    s.queue.items = passed.filter (wants pump)
  passed : passed = read ∨ ∃ m, passed ++ [m] = read

variable {r : Run Message} {f g : Fanout Message} {rd : Reader} {taken read passed : List Message}
  {pump id : Nat}

/-- What is received is taken off the queue of the subscriber, and stays among its items. -/
theorem receive_taken {s : Flow.Subscriber Message} {i : Nat} {x : Fanout.Received Message}
    (h : f.receive id = (g, x)) (hs : f.subscriber? i = some s) :
    ∃ t, g.subscriber? i = some t ∧ t.queue.shut = s.queue.shut ∧ t.queue.items = s.queue.items ∧
      t.queue.taken.reverse = s.queue.taken.reverse ++ if id = i then got x else [] := by
  simp only [Fanout.receive] at h
  split at h
  · cases h
    exact ⟨s, hs, rfl, rfl, by simp [got]⟩
  · next u hu =>
    split at h
    · next a ha =>
      cases h
      rw [Fanout.subscriber?_update]
      by_cases hi : id = i
      · subst hi
        obtain rfl : u = s := Option.some.inj (hu.symm.trans hs)
        rw [Flow.Channel.next?, List.head?_eq_some_iff] at ha
        obtain ⟨rest, hq⟩ := ha
        refine ⟨{ u with queue := u.queue.take }, by simp [hs], Flow.Channel.shut_take,
          Flow.Channel.items_take, ?_⟩
        simp [Flow.Channel.take, hq, got]
      · exact ⟨s, by rw [if_neg hi, hs], rfl, rfl, by simp [hi]⟩
    · split at h <;> cases h <;> exact ⟨s, hs, rfl, rfl, by simp [got]⟩

namespace Heard

/-- Nothing else is given to the pump than what is for it, in the order in which that was read. -/
theorem in_order (h : Heard f pump taken read passed) : ∃ s, f.subscriber? pump = some s ∧
    (pump = Link.requestQueue → s.queue.taken.reverse = taken) ∧
      s.queue.items <+: read.filter (wants pump) := by
  obtain ⟨⟨s, hs, -, ht, hi⟩, hp⟩ := h
  refine ⟨s, hs, ht, hi ▸ List.IsPrefix.filter _ ?_⟩
  rcases hp with rfl | ⟨m, hm⟩
  · exact List.prefix_refl _
  · exact ⟨[m], hm⟩

theorem receive {x : Fanout.Received Message} (h : Heard f pump taken read passed)
    (hx : f.receive id = (g, x)) :
    Heard g pump (taken ++ if id = Link.requestQueue then got x else []) read passed := by
  obtain ⟨s, hs, hsh, ht, hi⟩ := h.given
  obtain ⟨t, ht', hsh', hi', htk⟩ := receive_taken hx hs
  refine ⟨⟨t, ht', hsh'.trans hsh, fun hp => ?_, hi'.trans hi⟩, h.passed⟩
  rw [htk, ht hp, hp]

theorem map {k : Flow.Subscriber Message → Flow.Subscriber Message}
    (h : Heard f pump taken read passed) (hg : g.subscribers = f.subscribers.map k)
    (hk : ∀ s, (k s).queue.shut = s.queue.shut ∧ (k s).queue.taken = s.queue.taken ∧
      (k s).queue.items = s.queue.items) : Heard g pump taken read passed := by
  obtain ⟨s, hs, hsh, ht, hi⟩ := h.given
  obtain ⟨hsh', ht', hi'⟩ := hk s
  refine ⟨⟨k s, by rw [Fanout.subscriber?_map hg, hs]; rfl, hsh'.trans hsh, fun hp => ?_,
    hi'.trans hi⟩, h.passed⟩
  rw [ht', ht hp]

end Heard

namespace Fed

theorem publish (h : Fed r f .reading taken read) (m : Message) :
    Fed (r.step (.publish m)) (f.publish m).1 (.publishing (f.publish m).2) taken (read ++ [m]) := by
  obtain rfl := h.fanout
  have hp : r.fanout.publications = [] := h.stands
  have hm := h.members (by simp)
  have hr : r.step (.publish m) = { r with
      fanout := (r.fanout.publish m).1
      issues := r.issues ++ [⟨(r.fanout.publish m).2, m, r.members⟩] } := by
    simp only [Run.step, hp]
  refine ⟨h.sound.step _, by rw [hr], by rw [hr]; exact h.terms, fun _ => by rw [hr]; exact hm, ?_,
    fun i s => Run.shut_step h.shut (by simp), ?_, by rw [hr]; exact h.taken,
    ⟨_, by simp only [Fanout.publish, hp]; rfl, rfl⟩⟩
  · intro e he
    rw [hr] at he
    rcases List.mem_append.1 he with he | he
    · exact h.audience e he
    · obtain rfl := List.mem_singleton.1 he
      exact hm
  · rw [hr, List.map_append, h.read]
    rfl

theorem send {pr : Fanout.Progress} (h : Fed r f (.publishing id) taken read)
    (hs : f.step? id = some (g, pr)) : Fed (r.step .send) g (.after id pr) taken read := by
  obtain rfl := h.fanout
  obtain ⟨p, hp, rfl⟩ := h.stands
  have hr : r.step .send = { r with
      fanout := g
      deliveries := r.deliveries ++ (Fanout.grown r.fanout g).map fun i => (p.id, i)
      results := r.results ++ pr.results p.id } := by
    simp only [Run.step, hp, hs]
  refine ⟨h.sound.step _, by rw [hr], by rw [hr]; exact h.terms,
    fun _ => by rw [hr]; exact h.members (by simp), by rw [hr]; exact h.audience,
    fun i s => Run.shut_step h.shut (by simp), by rw [hr]; exact h.read, by rw [hr]; exact h.taken,
    ?_⟩
  rcases Fanout.publications_advance hp (Fanout.advance_of_step? hp hs) with
    ⟨⟨n, rfl⟩, hpub⟩ | ⟨hn, hpub⟩
  · exact hpub
  · cases pr with
    | finished n => exact absurd rfl (hn n)
    | moved | waiting => exact hpub

theorem receive {x : Fanout.Received Message} (h : Fed r f rd taken read)
    (hf : f.receive id = (g, x)) : Fed (r.step (.receive id)) g rd
      (taken ++ if id = Link.requestQueue then got x else []) read := by
  obtain rfl := h.fanout
  have hfan : (r.step (.receive id)).fanout = g := by rw [Run.fanout_receive, hf]
  have hpub : g.publications = r.fanout.publications := by
    have hp := r.fanout.publications_receive id
    rwa [hf] at hp
  have hsame : (r.step (.receive id)).terms = r.terms ∧ (r.step (.receive id)).members = r.members ∧
      (r.step (.receive id)).issues = r.issues := by
    rcases r.step_receive id with hr | ⟨_, _, _, -, -, hr⟩ <;> rw [hr] <;> exact ⟨rfl, rfl, rfl⟩
  obtain ⟨ht, hm, hi⟩ := hsame
  refine ⟨h.sound.step _, hfan, ht ▸ h.terms, hm ▸ h.members, hi ▸ h.audience,
    fun i s => Run.shut_step h.shut (by simp), hi ▸ h.read, ?_, ?_⟩
  · have hrec : (r.step (.receive id)).received = r.received ++ (got x).map fun m => (id, m) := by
      simp only [Run.step, hf]
      cases x <;> simp [got]
    rw [Run.receivedBy, hrec, ← h.taken, List.filter_append, List.map_append, List.filter_map]
    congr 1
    split
    · next he => cases x <;> simp [got, he]
    · next he => cases x <;> simp [got, he]
  · cases rd with
    | reading | done => exact hpub.trans h.stands
    | publishing id' => exact h.stands.imp fun p hp => ⟨hpub.trans hp.1, hp.2⟩

theorem close (h : Fed r f .reading taken read) : Fed (r.step .close) f.close .done taken read := by
  obtain rfl := h.fanout
  exact ⟨h.sound.step _, rfl, h.terms, nofun, h.audience, fun i s => Run.shut_step h.shut (by simp),
    h.read, h.taken, h.stands⟩

theorem underway (h : Fed r f rd taken read) {p : Flow.Publication Message}
    (hp : f.publications = [p]) : r.Underway p := by
  obtain rfl := h.fanout
  rcases h.sound.one with hn | ⟨q, hu⟩
  · rw [hp] at hn
    cases hn
  · obtain rfl : p = q := List.singleton_inj.1 (hp.symm.trans hu.publications)
    exact hu

theorem ahead (h : Fed r f rd taken read) {p : Flow.Publication Message}
    (hp : f.publications = [p]) {s : Flow.Subscriber Message} (ha : pump ∈ p.ahead)
    (hs : f.subscriber? pump = some s) : pump ∈ pumps := by
  obtain ⟨before, members, hl, hm⟩ := (h.underway hp).last
  obtain rfl := h.fanout
  have hmem := hm pump s hs (h.shut pump s hs) ha
  rwa [← h.audience ⟨p.id, p.item, members⟩ (by simp [hl])]

theorem issued (h : Fed r f rd taken read) (hp : pump ∈ pumps) : Run.issued r.issues pump = read := by
  rw [Run.issued, List.filter_eq_self.2, h.read]
  intro e he
  rw [h.audience e he]
  exact decide_eq_true hp

theorem heard (h : Fed r f rd taken read) (hp : pump ∈ pumps) :
    ∃ passed, Heard f pump taken read passed ∧ ((∀ id, rd ≠ .publishing id) → passed = read) := by
  obtain rfl := h.fanout
  have hissued := h.issued hp
  have hterms : r.terms.map (·.2) = [wants 0, wants 1] := h.terms
  have hlt : pump < r.fanout.subscribers.length := by
    have hlen := congrArg List.length hterms
    rw [List.length_map, h.sound.terms] at hlen
    simp only [pumps, Link.requestQueue, Link.responseQueue, List.mem_cons, List.not_mem_nil,
      or_false] at hp
    rw [hlen]
    rcases hp with rfl | rfl <;> decide
  have hs : r.fanout.subscriber? pump = some _ := List.getElem?_eq_getElem hlt
  generalize r.fanout.subscribers[pump] = s at hs
  have hk := h.sound.each pump s hs
  have hsh := h.shut pump s hs
  have hacc : s.accepts = wants pump := by
    obtain ⟨n, hn, -⟩ := hk.terms
    have ht := congrArg (·[pump]?) hterms
    simp only [List.getElem?_map, hn, Option.map_some] at ht
    simp only [pumps, Link.requestQueue, Link.responseQueue, List.mem_cons, List.not_mem_nil,
      or_false] at hp
    rcases hp with rfl | rfl <;> exact Option.some.inj ht
  refine ⟨r.passed pump, ⟨⟨s, hs, hsh, ?_, hacc ▸ hk.items hsh⟩, ?_⟩, fun hrd => ?_⟩
  · rintro rfl
    rw [← h.taken, hk.received hsh]
  · rw [← hissued]
    exact h.sound.passed_prefix pump
  · have hpub : r.fanout.publications = [] := by
      have hst := h.stands
      cases rd with
      | reading | done => exact hst
      | publishing id => exact absurd rfl (hrd id)
    rw [Run.passed_idle hpub, hissued]

end Fed

end Parley.Dispatch
