import Parley.Proofs.Flow.Fanout.Record

namespace Parley.Flow.Fanout.Run

variable {α : Type} {s : Subscriber α} {r r' : Run α} {p : Publication α}
  {es : List (Issue α)} {i : Nat}

/-- What a run has kept about a subscriber. While the receiver lives, it has been given what it
accepts of all that has come past it. -/
structure Kept (r : Run α) (i : Nat) (s : Subscriber α) : Prop where
  id : s.id = i
  terms : ∃ n, r.terms[i]? = some (n, s.accepts) ∧ s.queue.capacity = max n 1
  room : s.queue.queue.length ≤ s.queue.capacity
  registered : s.queue.shut = false → (s.registered = true ↔ i ∈ r.members)
  received : s.queue.shut = false → r.receivedBy i = s.queue.taken.reverse
  items : s.queue.shut = false → s.queue.items = (r.passed i).filter s.accepts

structure Underway (r : Run α) (p : Publication α) : Prop where
  publications : r.fanout.publications = [p]
  last : ∃ before members, r.issues = before ++ [⟨p.id, p.item, members⟩] ∧
    ∀ i s, r.fanout.subscriber? i = some s → s.queue.shut = false → i ∈ p.ahead → i ∈ members
  known : ∀ i ∈ p.ahead ++ p.gone, i < r.fanout.subscribers.length
  ahead : p.ahead.Nodup
  behind : ∀ i ∈ p.ahead, (p.id, i) ∉ r.deliveries
  gone : ∀ i ∈ p.gone, ∀ s, r.fanout.subscriber? i = some s → s.queue.shut = true
  delivered : p.delivered = r.delivered p.id
  unfinished : ∀ x ∈ r.results, x.1 ≠ p.id

structure Sound (r : Run α) : Prop where
  each : ∀ i s, r.fanout.subscriber? i = some s → r.Kept i s
  terms : r.terms.length = r.fanout.subscribers.length
  members : ∀ i ∈ r.members, i < r.fanout.subscribers.length
  audience : ∀ e ∈ r.issues, ∀ i ∈ e.members, i < r.fanout.subscribers.length
  receivers : ∀ x ∈ r.received, x.1 < r.fanout.subscribers.length
  numbered : r.issues.map (·.id) = List.range r.fanout.published
  once : r.deliveries.Nodup
  sent : ∀ x ∈ r.deliveries, x.1 < r.fanout.published
  results : ∀ x ∈ r.results, x.1 < r.fanout.published ∧ x.2 = r.delivered x.1
  one : r.fanout.publications = [] ∨ ∃ p, r.Underway p

theorem issued_append (es es' : List (Issue α)) (i : Nat) :
    issued (es ++ es') i = issued es i ++ issued es' i := by
  simp [issued]

theorem issued_eq_nil (h : ∀ e ∈ es, i ∉ e.members) : issued es i = [] := by
  rw [issued, List.filter_eq_nil_iff.2 (by simpa using h)]
  rfl

theorem passed_idle (h : r.fanout.publications = [])
    (i : Nat) : r.passed i = issued r.issues i := by
  have ha (id : Nat) : r.ahead id = [] := by simp [Run.ahead, publication?, h]
  rw [passed, List.filter_eq_self.2]
  simp [ha]

theorem passed_underway {before : List (Issue α)} {members : List Nat}
    (hp : r.fanout.publications = [p]) (hl : r.issues = before ++ [⟨p.id, p.item, members⟩])
    (hn : (r.issues.map (·.id)).Nodup) (i : Nat) :
    r.passed i = issued before i ++ if i ∈ members ∧ i ∉ p.ahead then [p.item] else [] := by
  have ha (id : Nat) : r.ahead id = if p.id = id then p.ahead else [] := by
    simp only [Run.ahead, publication?, hp, List.find?_cons, List.find?_nil]
    by_cases h : p.id = id <;> simp [h]
  have hb : ∀ e ∈ before, ¬p.id = e.id := by
    intro e he h
    rw [hl, List.map_append, List.nodup_append] at hn
    exact hn.2.2 e.id (List.mem_map_of_mem he) p.id (by simp) h.symm
  have hf : before.filter (fun e => i ∉ r.ahead e.id) = before := by
    rw [List.filter_eq_self]
    intro e he
    simp [ha, hb e he]
  rw [passed, hl, List.filter_append, hf, issued_append]
  congr 1
  by_cases hi : i ∈ p.ahead
  · simp [ha, hi, issued]
  · by_cases hm : i ∈ members <;> simp [ha, hi, hm, issued]

theorem Sound.nodup (hs : r.Sound) : (r.issues.map (·.id)).Nodup :=
  hs.numbered ▸ List.nodup_range

/-- What comes past a subscriber is what is published while it is subscribed, but for the last. -/
theorem Sound.passed_prefix (hs : r.Sound) (i : Nat) :
    r.passed i = issued r.issues i ∨ ∃ a, r.passed i ++ [a] = issued r.issues i := by
  rcases hs.one with hp | ⟨p, hu⟩
  · exact .inl (passed_idle hp i)
  · obtain ⟨before, members, hl, -⟩ := hu.last
    rw [passed_underway hu.publications hl hs.nodup, hl, issued_append]
    by_cases hm : i ∈ members
    · by_cases ha : i ∈ p.ahead
      · exact .inr ⟨p.item, by simp [issued, hm, ha]⟩
      · exact .inl (by simp [issued, hm, ha])
    · exact .inl (by simp [issued, hm])

theorem passed_congr (hi : r'.issues = r.issues)
    (hp : r'.fanout.publications = r.fanout.publications) (i : Nat) : r'.passed i = r.passed i := by
  have ha : r'.ahead = r.ahead := by
    funext id
    rw [Run.ahead, Run.ahead, publication?, publication?, hp]
  rw [passed, passed, hi, ha]

theorem Kept.congr (h : r.Kept i s) (ht : r'.terms[i]? = r.terms[i]?)
    (hm : i ∈ r'.members ↔ i ∈ r.members) (hr : r'.receivedBy i = r.receivedBy i)
    (hp : s.queue.shut = false → r'.passed i = r.passed i) : r'.Kept i s where
  id := h.id
  terms := ht ▸ h.terms
  room := h.room
  registered hs := (h.registered hs).trans hm.symm
  received hs := hr ▸ h.received hs
  items hs := hp hs ▸ h.items hs

theorem sound_empty : ({} : Run α).Sound where
  each i s h := by simp [subscriber?] at h
  terms := rfl
  members := by simp
  audience := by simp
  receivers := by simp
  numbered := rfl
  once := List.nodup_nil
  sent := by simp
  results := by simp
  one := .inl rfl

theorem Underway.congr (h : r.Underway p) (hp : r'.fanout.publications = r.fanout.publications)
    (hi : r'.issues = r.issues) (hd : r'.deliveries = r.deliveries)
    (hr : r'.results = r.results)
    (hlen : r.fanout.subscribers.length ≤ r'.fanout.subscribers.length)
    (hold : ∀ i t, i < r.fanout.subscribers.length → r'.fanout.subscriber? i = some t →
      ∃ s, r.fanout.subscriber? i = some s ∧ (s.queue.shut = true → t.queue.shut = true)) :
    r'.Underway p where
  publications := hp.trans h.publications
  last := by
    obtain ⟨before, members, hl, hm⟩ := h.last
    refine ⟨before, members, hi.trans hl, fun i t ht hs ha => ?_⟩
    obtain ⟨s, hs', hst⟩ := hold i t (h.known i (List.mem_append_left _ ha)) ht
    refine hm i s hs' ?_ ha
    cases hc : s.queue.shut with
    | false => rfl
    | true => exact absurd (hst hc) (by simp [hs])
  known i hi := Nat.lt_of_lt_of_le (h.known i hi) hlen
  ahead := h.ahead
  behind := hd ▸ h.behind
  gone := by
    intro i hg t ht
    obtain ⟨s, hs', hst⟩ := hold i t (h.known i (List.mem_append_right _ hg)) ht
    exact hst (h.gone i hg s hs')
  delivered := by
    have hd' : r'.delivered p.id = r.delivered p.id := by rw [Run.delivered, Run.delivered, hd]
    rw [h.delivered, hd']
  unfinished := hr ▸ h.unfinished

/-- A subscriber that is new has been given nothing, for nothing has been published to it yet. -/
theorem Sound.kept_subscribe (hs : r.Sound) (n : Nat) (accepts : α → Bool) :
    (r.step (.subscribe n accepts)).Kept r.fanout.subscribers.length
      ⟨r.fanout.subscribers.length, accepts, .ofCapacity n, true⟩ where
  id := rfl
  terms := ⟨n, by simp [step, hs.terms], rfl⟩
  room := Nat.zero_le _
  registered _ := by simp [step, Fanout.subscribe]
  received _ := by
    rw [receivedBy, List.filter_eq_nil_iff.2]
    · rfl
    · intro x hx
      have := hs.receivers x hx
      simp only [decide_eq_true_eq]
      omega
  items _ := by
    have hpass : (r.step (.subscribe n accepts)).passed r.fanout.subscribers.length = _ :=
      passed_congr rfl rfl _
    rw [hpass, passed, issued_eq_nil]
    · rfl
    · intro e he hm
      exact Nat.lt_irrefl _ (hs.audience e (List.mem_filter.1 he).1 _ hm)

theorem Sound.subscribe (hs : r.Sound) (n : Nat) (accepts : α → Bool) :
    (r.step (.subscribe n accepts)).Sound := by
  have hlen : (r.step (.subscribe n accepts)).fanout.subscribers.length =
      r.fanout.subscribers.length + 1 := by
    simp [step, Fanout.subscribe]
  have hsub (i : Nat) : (r.step (.subscribe n accepts)).fanout.subscriber? i = _ :=
    subscriber?_subscribe r.fanout n accepts i
  constructor
  case each =>
    intro i s hi
    rw [hsub] at hi
    split at hi
    · next he =>
      subst he
      cases hi
      exact hs.kept_subscribe n accepts
    · next hne =>
      have hlt := lt_of_subscriber? hi
      refine (hs.each i s hi).congr ?_ ?_ rfl fun _ => passed_congr rfl rfl i
      · exact List.getElem?_append_left (by rw [hs.terms]; exact hlt)
      · simp [step, Fanout.subscribe, hne]
  case terms => simp [step, Fanout.subscribe, hs.terms]
  case members =>
    intro i hi
    rw [hlen]
    rcases List.mem_append.1 hi with hi | hi
    · exact Nat.lt_succ_of_lt (hs.members i hi)
    · obtain rfl := List.mem_singleton.1 hi
      exact Nat.lt_succ_self _
  case audience => exact fun e he i hi => hlen ▸ Nat.lt_succ_of_lt (hs.audience e he i hi)
  case receivers => exact fun x hx => hlen ▸ Nat.lt_succ_of_lt (hs.receivers x hx)
  case numbered => exact hs.numbered
  case once => exact hs.once
  case sent => exact hs.sent
  case results => exact hs.results
  case one =>
    refine hs.one.imp id (Exists.imp fun p hu => hu.congr rfl rfl rfl rfl (by omega) ?_)
    intro i t hi ht
    rw [hsub, if_neg (by omega)] at ht
    exact ⟨t, ht, id⟩

theorem Sound.ids (hs : r.Sound) :
    r.fanout.subscribers.map (·.id) = List.range r.fanout.subscribers.length := by
  apply List.ext_getElem?
  intro i
  rw [List.getElem?_map]
  by_cases hi : i < r.fanout.subscribers.length
  · have hk := hs.each i _ (List.getElem?_eq_getElem hi)
    rw [List.getElem?_eq_getElem hi, Option.map_some, hk.id, List.getElem?_range hi]
  · rw [List.getElem?_eq_none (by omega), List.getElem?_eq_none (by simp; omega)]
    rfl

theorem Sound.mem_registered (hs : r.Sound) (hi : r.fanout.subscriber? i = some s) :
    i ∈ r.fanout.registered.map (·.id) ↔ s.registered = true := by
  rw [registered, List.mem_map]
  constructor
  · rintro ⟨t, ht, he⟩
    obtain ⟨ht, hr⟩ := List.mem_filter.1 ht
    obtain ⟨j, hj⟩ := List.getElem?_of_mem ht
    obtain rfl : j = i := (hs.each j t hj).id.symm.trans he
    obtain rfl : t = s := Option.some.inj (hj.symm.trans hi)
    exact hr
  · intro hr
    exact ⟨s, List.mem_filter.2 ⟨List.mem_of_getElem? hi, hr⟩, (hs.each i s hi).id⟩

theorem Sound.audience_lt (hs : r.Sound) (hi : i ∈ r.fanout.registered.map (·.id)) :
    i < r.fanout.subscribers.length := by
  have hm : i ∈ r.fanout.subscribers.map (·.id) := (List.filter_sublist.map _).subset hi
  rw [hs.ids] at hm
  exact List.mem_range.1 hm

end Parley.Flow.Fanout.Run
