import Parley.Proofs.Flow.Fanout.Sound

namespace Parley.Flow.Fanout.Run

variable {α : Type} {r r' : Run α}

theorem Sound.underway_publish (hs : r.Sound) (hp : r.fanout.publications = []) (a : α) :
    Run.Underway { r with
      fanout := (r.fanout.publish a).1
      issues := r.issues ++ [⟨r.fanout.published, a, r.members⟩] }
      ⟨r.fanout.published, a, r.fanout.registered.map (·.id), r.fanout.registered.map (·.id), 0,
        []⟩ where
  publications := by simp [Fanout.publish, hp]
  last := ⟨_, _, rfl, fun i s hi hsh ha =>
    ((hs.each i s hi).registered hsh).1 ((hs.mem_registered hi).1 ha)⟩
  known i hi := hs.audience_lt (by simpa using hi)
  ahead := (List.filter_sublist.map _).nodup (hs.ids ▸ List.nodup_range)
  behind i _ hd := Nat.lt_irrefl _ (hs.sent _ hd)
  gone := nofun
  delivered := by
    refine (List.countP_eq_zero.2 fun x hx => ?_).symm
    have := hs.sent x hx
    simp only [decide_eq_true_eq]
    omega
  unfinished x hx he := Nat.lt_irrefl _ (he ▸ (hs.results x hx).1)

theorem Sound.publish (hs : r.Sound) (a : α) : (r.step (.publish a)).Sound := by
  rcases hp : r.fanout.publications with _ | ⟨p, ps⟩
  · have hr : r.step (.publish a) = { r with
        fanout := (r.fanout.publish a).1
        issues := r.issues ++ [⟨r.fanout.published, a, r.members⟩] } := by
      simp only [step, hp]
      rfl
    have hu := hs.underway_publish hp a
    have hnum : (r.issues ++ [(⟨r.fanout.published, a, r.members⟩ : Issue α)]).map (·.id) =
        List.range (r.fanout.published + 1) := by
      rw [List.map_append, hs.numbered, List.range_succ]
      rfl
    rw [hr]
    constructor
    case each =>
      intro i s hi
      refine (hs.each i s hi).congr rfl .rfl rfl fun hsh => ?_
      rw [passed_underway hu.publications rfl (hnum ▸ List.nodup_range), passed_idle hp]
      have hm : i ∈ r.members → i ∈ r.fanout.registered.map (·.id) := fun hm =>
        (hs.mem_registered hi).2 (((hs.each i s hi).registered hsh).2 hm)
      rw [if_neg fun h => h.2 (hm h.1), List.append_nil]
    case terms => exact hs.terms
    case members => exact hs.members
    case audience =>
      intro e he
      rcases List.mem_append.1 he with he | he
      · exact hs.audience e he
      · obtain rfl := List.mem_singleton.1 he
        exact hs.members
    case receivers => exact hs.receivers
    case numbered => exact hnum
    case once => exact hs.once
    case sent => exact fun x hx => Nat.lt_succ_of_lt (hs.sent x hx)
    case results =>
      exact fun x hx => ⟨Nat.lt_succ_of_lt (hs.results x hx).1, (hs.results x hx).2⟩
    case one => exact .inr ⟨_, hu⟩
  · have hr : r.step (.publish a) = r := by simp only [step, hp]
    rw [hr]
    exact hs

/-- A step by which no publication goes on and no receiver comes back. -/
theorem Sound.of_each (hs : r.Sound) (hp : r'.fanout.publications = r.fanout.publications)
    (hn : r'.fanout.published = r.fanout.published)
    (hlen : r'.fanout.subscribers.length = r.fanout.subscribers.length) (ht : r'.terms = r.terms)
    (hm : r'.members ⊆ r.members) (hi : r'.issues = r.issues)
    (hrec : ∀ x ∈ r'.received, x.1 < r.fanout.subscribers.length)
    (hd : r'.deliveries = r.deliveries) (hr : r'.results = r.results)
    (hold : ∀ i t, r'.fanout.subscriber? i = some t → ∃ s, r.fanout.subscriber? i = some s ∧
      (s.queue.shut = true → t.queue.shut = true) ∧ (r.Kept i s → r'.Kept i t)) : r'.Sound where
  each i t h := by
    obtain ⟨s, hs', -, hk⟩ := hold i t h
    exact hk (hs.each i s hs')
  terms := by rw [ht, hs.terms, hlen]
  members i h := hlen ▸ hs.members i (hm h)
  audience := by rw [hi, hlen]; exact hs.audience
  receivers := by rw [hlen]; exact hrec
  numbered := by rw [hi, hn]; exact hs.numbered
  once := hd ▸ hs.once
  sent := by rw [hd, hn]; exact hs.sent
  results := by
    have hd' : r'.delivered = r.delivered := by funext id; rw [Run.delivered, Run.delivered, hd]
    rw [hr, hn, hd']
    exact hs.results
  one := by
    rw [hp]
    refine hs.one.imp id (Exists.imp fun p hu =>
      hu.congr hp hi hd hr (Nat.le_of_eq hlen.symm) fun i t _ h => ?_)
    obtain ⟨s, hs', hsh, -⟩ := hold i t h
    exact ⟨s, hs', hsh⟩

theorem Sound.drop (hs : r.Sound) (id : Nat) : (r.step (.drop id)).Sound := by
  refine hs.of_each rfl rfl (by simp [step, unsubscribe, update]) rfl (fun _ h => h) rfl
    hs.receivers rfl rfl fun i t ht => ?_
  have ht : (r.fanout.unsubscribe id).subscriber? i = some t := ht
  rw [unsubscribe, subscriber?_update] at ht
  split at ht
  · obtain ⟨s, hi, rfl⟩ := Option.map_eq_some_iff.1 ht
    refine ⟨s, hi, fun _ => rfl, fun hk => ?_⟩
    exact ⟨hk.id, hk.terms, Nat.zero_le _, (by cases ·), (by cases ·), (by cases ·)⟩
  · exact ⟨t, ht, fun h => h, fun hk => hk.congr rfl .rfl rfl fun _ => passed_congr rfl rfl i⟩

theorem Sound.close (hs : r.Sound) : (r.step .close).Sound := by
  refine hs.of_each rfl rfl (by simp [step, Fanout.close]) rfl (List.nil_subset _) rfl
    hs.receivers rfl rfl fun i t ht => ?_
  have ht : r.fanout.close.subscriber? i = some t := ht
  rw [subscriber?_map (f := r.fanout) rfl] at ht
  obtain ⟨s, hi, rfl⟩ := Option.map_eq_some_iff.1 ht
  refine ⟨s, hi, fun h => h, fun hk => ⟨hk.id, hk.terms, hk.room, fun _ => ?_, hk.received, ?_⟩⟩
  · simp [step]
  · intro hsh
    have hpass : (r.step .close).passed i = r.passed i := passed_congr rfl rfl i
    rw [hpass]
    exact hk.items hsh

theorem receivedBy_append (xs : List (Nat × α)) (j : Nat) (a : α) (i : Nat) :
    ((xs ++ [(j, a)]).filter fun x => x.1 = i).map (·.2) =
      (xs.filter fun x => x.1 = i).map (·.2) ++ if j = i then [a] else [] := by
  by_cases h : j = i <;> simp [h]

theorem fanout_receive (r : Run α) (id : Nat) :
    (r.step (.receive id)).fanout = (r.fanout.receive id).1 := by
  simp only [step]
  split <;> simp [*]

theorem step_receive (r : Run α) (id : Nat) : r.step (.receive id) = r ∨
    ∃ s a queue, r.fanout.subscriber? id = some s ∧ s.queue.queue = a :: queue ∧
      r.step (.receive id) = { r with
        fanout := r.fanout.update id fun s => { s with queue := s.queue.take }
        received := r.received ++ [(id, a)] } := by
  cases hid : r.fanout.subscriber? id with
  | none => exact .inl (by simp only [step, Fanout.receive, hid])
  | some s =>
      cases hq : s.queue.queue with
      | nil =>
          have hn : s.queue.next? = none := by simp [Channel.next?, hq]
          by_cases hreg : s.registered || r.fanout.publications.any fun p => id ∈ p.audience
          · exact .inl (by simp only [step, Fanout.receive, hid, hn, if_pos hreg])
          · exact .inl (by simp only [step, Fanout.receive, hid, hn, if_neg hreg])
      | cons a queue =>
          have hn : s.queue.next? = some a := by simp [Channel.next?, hq]
          exact .inr ⟨s, a, queue, rfl, hq, by simp only [step, Fanout.receive, hid, hn]⟩

theorem Sound.receive (hs : r.Sound) (id : Nat) : (r.step (.receive id)).Sound := by
  rcases r.step_receive id with hr | ⟨s, a, queue, hid, hq, hr⟩
  · rw [hr]
    exact hs
  · rw [hr]
    refine hs.of_each rfl rfl (by simp [update]) rfl (fun _ h => h) rfl ?_ rfl rfl
      fun i t ht => ?_
    · intro x hx
      rcases List.mem_append.1 hx with hx | hx
      · exact hs.receivers x hx
      · obtain rfl := List.mem_singleton.1 hx
        exact lt_of_subscriber? hid
    · rw [subscriber?_update] at ht
      split at ht
      · next he =>
        subst he
        rw [hid] at ht
        cases ht
        refine ⟨s, hid, fun h => by simpa using h, fun hk => ⟨hk.id, ?_, ?_, ?_, ?_, ?_⟩⟩
        · simpa [Channel.take, hq] using hk.terms
        · have := hk.room
          rw [hq, List.length_cons] at this
          simp only [Channel.take, hq]
          omega
        · simpa using hk.registered
        · intro hsh
          rw [Channel.shut_take] at hsh
          have := hk.received hsh
          rw [receivedBy] at this ⊢
          rw [receivedBy_append, this, if_pos rfl]
          simp [Channel.take, hq]
        · intro hsh
          rw [Channel.shut_take] at hsh
          rw [Channel.items_take]
          exact (hk.items hsh).trans (congrArg _ (passed_congr rfl rfl id).symm)
      · next hne =>
        refine ⟨t, ht, fun h => h, fun hk => hk.congr rfl .rfl ?_ fun _ =>
          passed_congr rfl rfl i⟩
        rw [receivedBy, receivedBy_append, if_neg hne, List.append_nil, receivedBy]

end Parley.Flow.Fanout.Run
