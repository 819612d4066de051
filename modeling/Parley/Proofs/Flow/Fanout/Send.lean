import Parley.Proofs.Flow.Fanout.Outside
import Parley.Proofs.Flow.Fanout.Passing

namespace Parley.Flow.Fanout.Run

variable {α : Type} {f g : Fanout α} {s : Subscriber α} {r : Run α} {p : Publication α}

theorem Next.offer {s : Subscriber α} (who : Nat) (a : α) (ha : s.accepts a = true) :
    Next s { s with queue := (s.queue.offer who a).1 }
      (if (s.queue.offer who a).2 = .waiting then [] else [a]) where
  id := rfl
  accepts := rfl
  registered := rfl
  capacity := Channel.capacity_offer ..
  shut := Channel.shut_offer ..
  taken := Channel.taken_offer ..
  room := Channel.room_offer who a
  items := by
    intro hsh
    have hr : (s.queue.offer who a).2 ≠ .refused := fun h => by
      rw [(Channel.offer_refused s.queue who a).1 h] at hsh
      cases hsh
    rw [Channel.items_offer]
    cases ho : (s.queue.offer who a).2 with
    | accepted => simp [ha]
    | waiting => simp
    | refused => exact absurd ho hr

theorem Sound.finishes (hs : r.Sound) (hu : r.Underway p) (hc : p.ahead = []) :
    Run.Sound { r with
      fanout := r.fanout.finish p
      results := r.results ++ [(p.id, p.delivered)] } := by
  obtain ⟨before, members, hl, -⟩ := hu.last
  have hpub : (r.fanout.finish p).publications = [] := by simp [finish, hu.publications]
  have hlen : (r.fanout.finish p).subscribers.length = r.fanout.subscribers.length := by
    simp [finish]
  refine ⟨fun i t ht => ?_, by rw [hs.terms, hlen], hlen ▸ hs.members, hlen ▸ hs.audience,
    hlen ▸ hs.receivers, hs.numbered, hs.once, hs.sent, fun x hx => ?_, .inl hpub⟩
  · have ht : (r.fanout.finish p).subscriber? i = some t := ht
    rw [subscriber?_map (f := r.fanout) rfl] at ht
    obtain ⟨s, hi, rfl⟩ := Option.map_eq_some_iff.1 ht
    have hk := hs.each i s hi
    by_cases hg : s.id ∈ p.gone
    · have hsh := hu.gone i (hk.id ▸ hg) s hi
      simp only [hg, if_true]
      exact ⟨hk.id, hk.terms, hk.room, by simp [hsh], by simp [hsh], by simp [hsh]⟩
    · rw [if_neg hg]
      refine hk.congr rfl .rfl rfl fun _ => ?_
      rw [passed_underway hu.publications hl hs.nodup, hc]
      refine (passed_idle hpub i).trans ?_
      rw [hl, issued_append]
      by_cases hm : i ∈ members <;> simp [issued, hm]
  · rcases List.mem_append.1 hx with hx | hx
    · exact hs.results x hx
    · obtain rfl := List.mem_singleton.1 hx
      exact ⟨hu.lt hs, hu.delivered⟩

theorem grown_of_queue {g : Fanout α} (h : ∀ j t, g.subscriber? j = some t →
    ∃ s, f.subscriber? j = some s ∧ t.queue.queue = s.queue.queue) : grown f g = [] := by
  apply List.eq_nil_iff_forall_not_mem.2
  intro j hj
  cases ht : g.subscriber? j with
  | none => simp [grown, ht] at hj
  | some t =>
      obtain ⟨s, hs, hq⟩ := h j t ht
      rw [mem_grown hs ht, hq] at hj
      exact Nat.lt_irrefl _ hj

section Put

variable {id : Nat} {queue : Channel Nat α}

theorem subscriber?_put (hi : f.subscriber? id = some s) (j : Nat) :
    (f.update id fun s => { s with queue }).subscriber? j =
      if id = j then some { s with queue } else f.subscriber? j := by
  rw [subscriber?_update]
  split
  · next h => rw [← h, hi, Option.map_some]
  · rfl

theorem grown_put (hi : f.subscriber? id = some s) :
    grown f (f.update id fun s => { s with queue }) =
      if s.queue.queue.length < queue.queue.length then [id] else [] := by
  have hown : (f.update id fun s => { s with queue }).subscriber? id = some { s with queue } := by
    rw [subscriber?_put hi, if_pos rfl]
  rw [grown_of_other fun j hj => (subscriber?_put hi j).trans (if_neg (Ne.symm hj))]
  simp only [mem_grown hi hown]

/-- A subscriber that has been offered the item, and does not have to be waited for, has been
passed. -/
theorem Passing.put {q : Publication α} (hp : f.publications = [p])
    (hi : f.subscriber? id = some s) (hn : Next s { s with queue } [p.item]) (hid : q.id = p.id)
    (hitem : q.item = p.item) (hc : p.ahead = id :: q.ahead)
    (hd : q.delivered = p.delivered + if s.queue.queue.length < queue.queue.length then 1 else 0)
    (hg : ∀ j ∈ q.gone, j ∈ p.gone ∨ j = id ∧ queue.shut = true) :
    Passing f ((f.update id fun s => { s with queue }).replace q) p q id := by
  have hown {t : Subscriber α}
      (ht : (f.update id fun s => { s with queue }).subscriber? id = some t) :
      t = { s with queue } := by
    rw [subscriber?_put hi, if_pos rfl] at ht
    exact (Option.some.inj ht).symm
  exact {
    publications := publications_replace hp hid
    same := hid
    item := hitem
    ahead := hc
    published := rfl
    length := by simp [replace, update]
    other := fun j hj => (subscriber?_put hi j).trans (if_neg (Ne.symm hj))
    own := fun t ht => ⟨s, hi, hown ht ▸ hn⟩
    delivered := by
      have hgrown : grown f (f.update id fun s => { s with queue }) = _ := grown_put hi
      refine hd.trans (congrArg (p.delivered + ·) ?_)
      refine Eq.trans ?_ (congrArg List.length hgrown.symm)
      split <;> rfl
    gone := fun j hj => (hg j hj).imp_right fun ⟨he, hsh⟩ => ⟨he, fun t ht => hown ht ▸ hsh⟩ }

theorem Sound.waits (hs : r.Sound) (hi : r.fanout.subscriber? id = some s)
    (hn : Next s { s with queue } []) :
    Run.Sound { r with fanout := r.fanout.update id fun s => { s with queue } } := by
  refine hs.of_each rfl rfl (by simp [update]) rfl (fun _ h => h) rfl hs.receivers rfl rfl
    fun j t ht => ?_
  rw [subscriber?_put hi] at ht
  split at ht
  · next h =>
    subst h
    cases ht
    refine ⟨s, hi, fun h => hn.shut.trans h, fun hk => hk.next hn rfl rfl rfl fun _ => ?_⟩
    rw [List.append_nil]
    exact passed_congr rfl rfl id
  · exact ⟨t, ht, fun h => h, fun hk => hk.congr rfl .rfl rfl fun _ => passed_congr rfl rfl j⟩

end Put

theorem Passing.skip {id : Nat} {rest : List Nat} (hp : f.publications = [p])
    (hc : p.ahead = id :: rest) (h : ∀ s, f.subscriber? id = some s → s.accepts p.item = false) :
    Passing f (f.replace { p with ahead := rest }) p { p with ahead := rest } id where
  publications := publications_replace hp rfl
  same := rfl
  item := rfl
  ahead := hc
  published := rfl
  length := by simp [replace]
  other _ _ := rfl
  own t ht := ⟨t, ht, .refl (by simp [h t ht])⟩
  delivered := by
    have hg : grown f (f.replace { p with ahead := rest }) = [] :=
      grown_of_queue fun j t ht => ⟨t, ht, rfl⟩
    rw [hg]
    rfl
  gone _ hj := .inl hj

/-- A publication goes on where its item finds a place. -/
theorem Underway.next (hu : r.Underway p)
    (hsh : ∀ i s, r.fanout.subscriber? i = some s → s.queue.shut = false)
    (hroom : ∀ i ∈ p.ahead, ∀ s, r.fanout.subscriber? i = some s →
      s.queue.place p.id < s.queue.room) :
    r.fanout.step? p.id = some (r.fanout.finish p, .finished p.delivered) ∨
      ∃ g q i, Passing r.fanout g p q i ∧ r.fanout.step? p.id = some (g, .moved) := by
  have hp := hu.publications
  cases hc : p.ahead with
  | nil =>
      refine .inl (step?_of_advance hp ?_ (by simp))
      simp only [Fanout.advance, hc]
  | cons id rest =>
      have hskip (h : ∀ s, r.fanout.subscriber? id = some s → s.accepts p.item = false)
          (ha : r.fanout.advance p = (r.fanout.replace { p with ahead := rest }, .moved)) :
          ∃ g q i, Passing r.fanout g p q i ∧ r.fanout.step? p.id = some (g, .moved) :=
        ⟨_, _, id, .skip hp hc h, step?_of_advance hp ha (by simp)⟩
      right
      cases hi : r.fanout.subscriber? id with
      | none => exact hskip (by simp [hi]) (by simp only [Fanout.advance, hc, hi])
      | some s =>
          cases hacc : s.accepts p.item with
          | false =>
              exact hskip (by simp [hi, hacc]) (by simp [Fanout.advance, hc, hi, hacc])
          | true =>
              have ho := Channel.offer_accepted p.item (hsh id s hi)
                (hroom id (hc ▸ List.mem_cons_self) s hi)
              have hnext := Next.offer p.id p.item hacc
              have hq := Channel.queue_offer s.queue p.id p.item
              rcases hx : s.queue.offer p.id p.item with ⟨queue, answer⟩
              rw [hx] at ho hnext hq
              obtain rfl : answer = .accepted := ho
              simp only [if_true, reduceCtorEq, if_false] at hq hnext
              refine ⟨_, { p with ahead := rest, delivered := p.delivered + 1 }, id,
                .put hp hi hnext rfl rfl hc (by simp [hq]) fun j hj => .inl hj,
                step?_of_advance hp ?_ (by simp)⟩
              simp only [Fanout.advance, hc, hi, hacc, if_true, hx]

theorem Sound.offers (hs : r.Sound) (hu : r.Underway p) {id : Nat} {rest : List Nat}
    (hc : p.ahead = id :: rest) (hi : r.fanout.subscriber? id = some s)
    (ha : s.accepts p.item = true) {f : Fanout α} {pr : Progress}
    (hadv : r.fanout.advance p = (f, pr)) : Run.Sound { r with
      fanout := f
      deliveries := r.deliveries ++ (grown r.fanout f).map fun i => (p.id, i)
      results := r.results ++ pr.results p.id } := by
  have hnext := Next.offer p.id p.item ha
  have hq := Channel.queue_offer s.queue p.id p.item
  have hr := Channel.offer_refused s.queue p.id p.item
  have hsh := Channel.shut_offer s.queue p.id p.item
  simp only [Fanout.advance, hc, hi, ha, if_true] at hadv
  rcases ho : s.queue.offer p.id p.item with ⟨queue, answer⟩
  rw [ho] at hnext hq hr hsh hadv
  cases answer with
  | accepted =>
      simp only [if_true, reduceCtorEq, if_false] at hq hnext hadv
      cases hadv
      rw [results_moved, List.append_nil]
      exact hs.passes hu (.put hu.publications hi hnext rfl rfl hc (by simp [hq])
        fun j hj => .inl hj)
  | refused =>
      simp only [reduceCtorEq, if_false] at hq hnext hadv
      cases hadv
      rw [results_moved, List.append_nil]
      refine hs.passes hu (.put hu.publications hi hnext rfl rfl hc (by simp [hq]) fun j hj => ?_)
      exact (List.mem_append.1 hj).imp_right fun hj =>
        ⟨List.mem_singleton.1 hj, hsh.trans (hr.1 rfl)⟩
  | waiting =>
      simp only [reduceCtorEq, if_false, if_true] at hq hnext hadv
      have hres : pr.results p.id = [] := by
        rw [← (Prod.mk.inj hadv).2]
        split <;> rfl
      obtain rfl := (Prod.mk.inj hadv).1
      rw [grown_put hi, hq, if_neg (Nat.lt_irrefl _), hres, List.map_nil, List.append_nil,
        List.append_nil]
      exact hs.waits hi hnext

theorem Sound.advance (hs : r.Sound) (hu : r.Underway p) {f : Fanout α} {pr : Progress}
    (ha : r.fanout.advance p = (f, pr)) : Run.Sound { r with
      fanout := f
      deliveries := r.deliveries ++ (grown r.fanout f).map fun i => (p.id, i)
      results := r.results ++ pr.results p.id } := by
  cases hc : p.ahead with
  | nil =>
      simp only [Fanout.advance, hc] at ha
      cases ha
      have hg : grown r.fanout (r.fanout.finish p) = [] := grown_of_queue fun j t ht => by
        rw [subscriber?_map (f := r.fanout) rfl] at ht
        obtain ⟨s, hi, rfl⟩ := Option.map_eq_some_iff.1 ht
        exact ⟨s, hi, by split <;> rfl⟩
      rw [hg, List.map_nil, List.append_nil]
      exact hs.finishes hu hc
  | cons id rest =>
      have hskip (h : ∀ s, r.fanout.subscriber? id = some s → s.accepts p.item = false)
          (hadv : (r.fanout.replace { p with ahead := rest }, Progress.moved) = (f, pr)) :
          Run.Sound { r with
            fanout := f
            deliveries := r.deliveries ++ (grown r.fanout f).map fun i => (p.id, i)
            results := r.results ++ pr.results p.id } := by
        cases hadv
        rw [results_moved, List.append_nil]
        exact hs.passes hu (.skip hu.publications hc h)
      cases hi : r.fanout.subscriber? id with
      | none =>
          refine hskip (by simp [hi]) ?_
          simpa only [Fanout.advance, hc, hi] using ha
      | some s =>
          cases hacc : s.accepts p.item with
          | true => exact hs.offers hu hc hi hacc ha
          | false =>
              refine hskip (by simp [hi, hacc]) ?_
              simpa [Fanout.advance, hc, hi, hacc] using ha

theorem Sound.send (hs : r.Sound) : (r.step .send).Sound := by
  rcases hs.one with hp | ⟨p, hu⟩
  · have hr : r.step .send = r := by simp only [step, hp]
    rw [hr]
    exact hs
  · cases hst : r.fanout.step? p.id with
    | none =>
        have hr : r.step .send = r := by simp only [step, hu.publications, hst]
        rw [hr]
        exact hs
    | some x =>
        obtain ⟨f, pr⟩ := x
        have hr : r.step .send = { r with
            fanout := f
            deliveries := r.deliveries ++ (grown r.fanout f).map fun i => (p.id, i)
            results := r.results ++ pr.results p.id } := by
          simp only [step, hu.publications, hst]
        rw [hr]
        exact hs.advance hu (advance_of_step? hu.publications hst)

theorem Sound.step (hs : r.Sound) (e : Event α) : (r.step e).Sound := by
  cases e with
  | subscribe n accepts => exact hs.subscribe n accepts
  | publish a => exact hs.publish a
  | send => exact hs.send
  | receive id => exact hs.receive id
  | drop id => exact hs.drop id
  | close => exact hs.close

theorem sound_run (es : List (Event α)) : (run es).Sound := by
  have hf (r : Run α) (hr : r.Sound) : (es.foldl Run.step r).Sound := by
    induction es generalizing r with
    | nil => exact hr
    | cons e es ih => exact ih (r.step e) (hr.step e)
  exact hf {} sound_empty

end Parley.Flow.Fanout.Run
