import Parley.Proofs.Server.Serves

namespace Parley.Dispatcher

open Dispatch

variable {d : Dispatcher} {c : ConnectionId} {n : Nat} {k : Call} {k' : Option Call} {ts : Touches}
  {qs past now : Wishes} {e : Event} {set : Json.Members}

/-- What has been asked for is over for `past`, and for `now` it is not. -/
structure Split (c : ConnectionId) (d : Dispatcher) (ts : Touches) (past now : Wishes) : Prop where
  once : ((past ++ now).map Prod.fst).Nodup
  known : ∀ q ∈ past ++ now, q.1 < d.numbered c
  all : ∀ {n k set}, d.call? c n = some k → k.set? = some set → (n, set) ∈ past ++ now
  going : ∀ q ∈ now, ∃ k, d.call? c q.1 = some k ∧ k.isOpen = true ∧ k.set? = some q.2
  shut : ∀ q ∈ past, ∀ k, d.call? c q.1 = some k → k.isOpen = false
  touched : ts = Touches.inTurn past ++ now.flatMap fun q => (noted ts q.1).map (q.1, ·)

def InTurn (c : ConnectionId) (d : Dispatcher) (ts : Touches) (qs : Wishes) : Prop :=
  ∃ past now, qs = past ++ now ∧ Split c d ts past now

theorem inTurn_start {service : Service} {maxIdle : Nat} :
    InTurn c (ofService service maxIdle) [] [] :=
  ⟨[], [], rfl, List.nodup_nil, nofun, (fun hk => by cases hk), nofun, nofun, rfl⟩

namespace Split

theorem aside (hi : Split c d ts past now) (h : Serves c d ts) (ha : Aside c d (d.happen e)) :
    Split c (d.happen e) ts past (now ++ (wish? c d e).toList) := by
  have hnew {q : Nat × Json.Members} (hq : q ∈ (wish? c d e).toList) : q.1 = d.numbered c ∧
      ∃ k, (d.happen e).call? c q.1 = some k ∧ k.set? = some q.2 :=
    wish?_eq_some.1 (Option.mem_toList.1 hq)
  have hnone {q : Nat × Json.Members} (hq : q ∈ (wish? c d e).toList) : d.call? c q.1 = none := by
    rw [(hnew hq).1]
    exact h.orderly.call?_numbered
  constructor
  case once =>
    rw [← List.append_assoc, List.map_append, List.nodup_append]
    refine ⟨hi.once, by cases wish? c d e <;> simp, fun a ha' b hb => ?_⟩
    obtain ⟨q, hq, rfl⟩ := List.mem_map.1 ha'
    obtain ⟨r, hr, rfl⟩ := List.mem_map.1 hb
    rw [(hnew hr).1]
    exact Nat.ne_of_lt (hi.known q hq)
  case known =>
    intro q hq
    rcases List.mem_append.1 (List.append_assoc past now _ ▸ hq) with hq | hq
    · exact Nat.lt_of_lt_of_le (hi.known q hq) ha.numbered
    · obtain ⟨-, k, hk, -⟩ := hnew hq
      exact (h.orderly.happen e).lt_numbered hk
  case all =>
    intro n k set hk hset
    rw [← List.append_assoc, List.mem_append]
    rcases ha.calls hk with hold | ⟨-, -, hn, -⟩
    · exact .inl (hi.all hold hset)
    · exact .inr (Option.mem_toList.2 (wish?_eq_some.2 ⟨hn.symm, k, hk, hset⟩))
  case going =>
    intro q hq
    rcases List.mem_append.1 hq with hq | hq
    · obtain ⟨k, hk, hk'⟩ := hi.going q hq
      exact ⟨k, ha.stay hk, hk'⟩
    · obtain ⟨-, k, hk, hset⟩ := hnew hq
      refine ⟨k, hk, ?_, hset⟩
      rcases ha.calls hk with hold | ⟨hp, -⟩
      · cases (hnone hq).symm.trans hold
      · simp [Call.isOpen, hp]
  case shut =>
    intro q hq k hk
    rcases ha.calls hk with hold | ⟨-, -, hn, -⟩
    · exact hi.shut q hq k hold
    · exact absurd hn (Nat.ne_of_gt (hi.known q (List.mem_append_left _ hq)))
  case touched =>
    have hblank : ((wish? c d e).toList.flatMap fun q => (noted ts q.1).map (q.1, ·)) = [] := by
      refine List.flatMap_eq_nil_iff.2 fun q hq => ?_
      rw [Touches.noted_eq_nil fun t ht => ?_, List.map_nil]
      rw [(hnew hq).1]
      exact Nat.ne_of_lt (h.known t ht)
    rw [List.flatMap_append, hblank, List.append_nil]
    exact hi.touched

/-- If calls are open one at a time, then the one that is open is all there is to do. -/
theorem now_eq (hi : Split c d ts past now) (h1 : OneAtATime c d) (hk : d.call? c n = some k)
    (ho : k.isOpen = true) (hset : k.set? = some set) : now = [(n, set)] := by
  have hmem : (n, set) ∈ now := by
    rcases List.mem_append.1 (hi.all hk hset) with hm | hm
    · cases ho.symm.trans (hi.shut _ hm k hk)
    · exact hm
  have hnd : (now.map Prod.fst).Nodup := by
    have hnd := hi.once
    rw [List.map_append] at hnd
    exact (List.nodup_append.1 hnd).2.1
  refine Wishes.eq_singleton hnd hmem fun q hq => ?_
  obtain ⟨i, hi, hio, -⟩ := hi.going q hq
  exact h1.call hi hk hio ho

/-- When a call has taken its turn, nothing is asked for that has not been before. -/
theorem turned (hi : Split c d ts past now) (hk : d.call? c n = some k)
    (ht : Turns c n ts d (d.happen e) k k') {s : Nat} {i : Call}
    (his : (d.happen e).call? c s = some i) (hset : i.set? = some set) : (s, set) ∈ past ++ now := by
  rcases ht.other his with ⟨rfl, hki⟩ | ⟨-, hold⟩
  · obtain ⟨_, _, rfl⟩ := ht.advances.kept i hki
    exact hi.all hk hset
  · exact hi.all hold hset

theorem touched_on (hi : Split c d ts past [(n, set)]) (hn : k.serial = n) :
    ts ++ (k.touch? ts).toList =
      Touches.inTurn past ++ (noted (ts ++ (k.touch? ts).toList) n).map (n, ·) := by
  have hown : (noted (k.touch? ts).toList n).map (n, ·) = (k.touch? ts).toList := by
    cases hx : k.touch? ts with
    | none => rfl
    | some t =>
        obtain rfl : t.1 = n := (Call.of_touch? hx).2.trans hn
        simp [noted]
  have hts := hi.touched
  rw [List.flatMap_singleton] at hts
  rw [noted_append, List.map_append, hown, ← List.append_assoc, ← hts]

end Split

namespace InTurn

/-- A call that asks for nothing, or the handler of which has come to an end, leaves it as it is. -/
theorem idle (hi : InTurn c d ts qs) (hk : d.call? c n = some k)
    (ht : Turns c n ts d (d.happen e) k k') (hs : k.isOpen = false ∨ k.set? = none)
    (hk' : ∀ i, k' = some i → i.isOpen = true → k.isOpen = true) : InTurn c (d.happen e) ts qs := by
  obtain ⟨past, now, hqs, hi⟩ := hi
  refine ⟨past, now, hqs, hi.once, fun q hq => ht.numbered ▸ hi.known q hq, hi.turned hk ht,
    fun q hq => ?_, fun q hq i his => ?_, hi.touched⟩
  · obtain ⟨i, his, hio, hset⟩ := hi.going q hq
    refine ⟨i, ?_, hio, hset⟩
    rw [ht.calls, if_neg]
    · exact his
    · intro hq
      obtain rfl : k = i := Option.some.inj (hk.symm.trans (hq ▸ his))
      rcases hs with hs | hs
      · cases hs.symm.trans hio
      · cases hs.symm.trans hset
  · rcases ht.other his with ⟨hq', hki⟩ | ⟨-, hold⟩
    · refine Bool.eq_false_iff.2 fun hio => ?_
      cases (hk' i hki hio).symm.trans (hi.shut q hq k (hq' ▸ hk))
    · exact hi.shut q hq i hold

theorem going (hi : InTurn c d ts qs) (h1 : OneAtATime c d) (hk : d.call? c n = some k)
    (ht : Turns c n ts d (d.happen e) k k') (ho : k.isOpen = true) (hset : k.set? = some set) :
    InTurn c (d.happen e) (ts ++ (k.touch? ts).toList) qs := by
  obtain ⟨past, now, hqs, hi⟩ := hi
  obtain rfl := hi.now_eq h1 hk ho hset
  have hn := serial_of_call? hk
  have hpast : ∀ q ∈ past, q.1 ≠ n := by
    have hnd := hi.once
    rw [List.map_append, List.nodup_append] at hnd
    exact fun q hq => hnd.2.2 _ (List.mem_map_of_mem hq) n (by simp)
  have hover {q : Nat × Json.Members} (hq : q ∈ past) {i : Call}
      (his : (d.happen e).call? c q.1 = some i) : i.isOpen = false := by
    rcases ht.other his with ⟨hq', -⟩ | ⟨-, hold⟩
    · exact absurd hq' (hpast q hq)
    · exact hi.shut q hq i hold
  have htouched := hi.touched_on hn
  obtain ⟨i, hki⟩ : ∃ i, k' = some i := Option.isSome_iff_exists.1 <| by
    have := Call.isOpen_iff_left.1 ho
    exact ht.advances.lasts (by omega) fun h1 => by omega
  obtain ⟨_, _, rfl⟩ := ht.advances.kept i hki
  have hcall : (d.happen e).call? c n = k' := by rw [ht.calls, if_pos rfl]
  cases hio : Call.isOpen _ with
  | true =>
      refine ⟨past, [(n, set)], hqs, hi.once, fun q hq => ht.numbered ▸ hi.known q hq,
        hi.turned hk ht, ?_, fun q hq i => hover hq, ?_⟩
      · intro q hq
        rw [List.mem_singleton.1 hq]
        exact ⟨_, hcall.trans hki, hio, hset⟩
      · rw [List.flatMap_singleton]
        exact htouched
  | false =>
      refine ⟨past ++ [(n, set)], [], by rw [hqs, List.append_nil], by simpa using hi.once,
        fun q hq => ?_, fun his hset' => ?_, by simp, fun q hq i his => ?_, ?_⟩
      · rw [List.append_nil] at hq
        exact ht.numbered ▸ hi.known q hq
      · rw [List.append_nil]
        exact hi.turned hk ht his hset'
      · rcases List.mem_append.1 hq with hq | hq
        · exact hover hq his
        · rw [List.mem_singleton.1 hq] at his
          cases (hcall.trans hki).symm.trans his
          exact hio
      · have hdone := (ht.advances.stands _ hki).noted_of_over hset hio
        rw [List.flatMap_nil, List.append_nil, Touches.inTurn_append, Touches.inTurn_singleton]
        exact hn ▸ hdone ▸ hn.symm ▸ htouched

theorem happen (hi : InTurn c d ts qs) (h : Serves c d ts) (hc : Calm c d) (h1 : OneAtATime c d)
    (he : e.of?.all (· = c) = true) :
    InTurn c (d.happen e) (ts ++ (touch? c ts d e).toList) (qs ++ (wish? c d e).toList) := by
  rcases h.course hc he with ⟨ht, ha⟩ | ⟨n, k, k', hk, hw, ht⟩
  · obtain ⟨past, now, rfl, hi⟩ := hi
    rw [ht, Option.toList_none, List.append_nil]
    exact ⟨past, _, List.append_assoc .., hi.aside h ha⟩
  · have hnone : wish? c d e = none := by
      rw [wish?, ht.calls, if_neg (Nat.ne_of_gt (h.orderly.lt_numbered hk)), h.orderly.call?_numbered]
      rfl
    rw [hw, hnone, Option.toList_none, List.append_nil]
    have hopen (i : Call) (hki : k' = some i) (hio : i.isOpen = true) : k.isOpen = true := by
      rw [Call.isOpen_iff_left] at hio ⊢
      have := ht.advances.left i hki
      omega
    cases hset : k.set? with
    | none =>
        rw [Call.touch?_of_none hset, Option.toList_none, List.append_nil]
        exact hi.idle hk ht (.inr hset) hopen
    | some set =>
        cases ho : k.isOpen with
        | false =>
            rw [Call.touch?_of_not_open ho, Option.toList_none, List.append_nil]
            exact hi.idle hk ht (.inl ho) hopen
        | true => exact hi.going h1 hk ht ho hset

end InTurn

end Parley.Dispatcher
