import Parley.Proofs.InFlight.Run

namespace Parley.InFlight

open Parley.Flow (Token)

def Act.On {κ : Type} (c : ConnectionId) : Act κ → Prop
  | .begin d _ _ | .cancel d _ | .remove d _ | .cancelConnection d => d = c
  | .claim t | .release t => t.connection = c
  | .fire _ => False

namespace Office

variable {κ : Type} {o o' : Office κ} {a : Act κ} {acts : List (Act κ)} {t u : Ticket κ}
  {c : ConnectionId} {id : RequestId} {x : κ}

def moments (o : Office κ) : List (Act κ) → List (Office κ × Act κ)
  | [] => []
  | a :: acts => (o, a) :: (o.perform a).moments acts

/-- The act wins the right to answer the request of the ticket, for its handler or for a
cancellation. -/
def Wins (t : Ticket κ) (o : Office κ) : Act κ → Prop
  | .claim u => u = t ∧ (o.registry.claim t).2 = true
  | .cancel c id => o.registry.lookup c id = some t ∧ (o.registry.cancel c id).2 = true
  | _ => False

def Strikes (t : Ticket κ) (o : Office κ) : Act κ → Prop
  | .cancel c id => o.registry.lookup c id = some t ∧ (o.registry.cancel c id).2 = true
  | .cancelConnection c => t ∈ o.registry.entries ∧ t.connection = c
  | _ => False

def Distinct (o : Office κ) : Prop :=
  o.registry.entries.Pairwise fun t u => ¬(t.connection = u.connection ∧ t.id = u.id)

theorem Distinct.sublist {r : InFlight κ} (h : o.Distinct)
    (hr : r.entries.Sublist o.registry.entries) : Distinct { o with registry := r } :=
  List.Pairwise.sublist hr h

theorem entries_cancel_sublist (r : InFlight κ) (c : ConnectionId) (id : RequestId) :
    (r.cancel c id).1.entries.Sublist r.entries := by
  rcases r.cancel_fst c id with ⟨-, h⟩ | ⟨_, _, h⟩
  · simp only [h, List.Sublist.refl]
  · rw [h]
    exact List.filter_sublist

theorem Distinct.perform (h : o.Distinct) (a : Act κ) : (o.perform a).Distinct := by
  cases a with
  | begin c id token =>
      rw [Office.perform]
      split
      · next r t hb =>
        obtain ⟨hn, rfl, rfl⟩ := begin?_eq_some.1 hb
        refine List.pairwise_append.2 ⟨h, List.pairwise_singleton _ _, fun u hu v hv hk => ?_⟩
        rw [List.mem_singleton.1 hv] at hk
        exact lookup_eq_none.1 hn u hu hk
      · exact h
  | claim t => exact h.sublist (by simp only [entries_claim, List.Sublist.refl])
  | release t => exact h.sublist (entries_release_sublist _ t)
  | cancel c id => exact h.sublist (entries_cancel_sublist _ c id)
  | remove c id => exact h.sublist List.filter_sublist
  | cancelConnection c =>
      rw [Office.perform, cancelConnection_eq]
      exact h.sublist List.filter_sublist
  | fire x => exact h

theorem Runs.distinct (h : Runs {} acts o) : o.Distinct := by
  induction h with
  | refl => exact List.Pairwise.nil
  | step _ _ ih => exact ih.perform _

theorem perform_begin (o : Office κ) (c : ConnectionId) (id : RequestId) (token : Token κ) :
    (o.perform (.begin c id token)).registry.claimed = o.registry.claimed ∧
      (o.perform (.begin c id token)).registry.fired = o.registry.fired := by
  rw [perform]
  split
  · next hb =>
    obtain ⟨-, -, rfl⟩ := begin?_eq_some.1 hb
    exact ⟨rfl, rfl⟩
  · exact ⟨rfl, rfl⟩

theorem claimed_subset_perform (o : Office κ) (a : Act κ) :
    o.registry.claimed ⊆ (o.perform a).registry.claimed := by
  cases a with
  | begin c id token =>
      rw [(perform_begin o c id token).1]
      exact List.Subset.refl _
  | claim t =>
      rw [perform, claim_eq]
      split
      · exact List.Subset.refl _
      · exact List.subset_append_left _ _
  | release t =>
      rw [perform, claimed_release]
      exact List.Subset.refl _
  | cancel c id =>
      rw [perform]
      rcases hc : o.registry.cancel c id with ⟨r, _ | _⟩
      · rcases cancel_eq_false hc with ⟨-, rfl⟩ | ⟨t, -, -, rfl⟩ <;> exact List.Subset.refl _
      · obtain ⟨t, -, -, rfl⟩ := cancel_eq_true hc
        exact List.subset_append_left _ _
  | remove c id => exact List.Subset.refl _
  | cancelConnection c =>
      rw [perform, cancelConnection_eq]
      exact List.subset_append_left _ _
  | fire x => exact List.Subset.refl _

theorem isClaimed_of_wins (h : Wins t o a ∨ Strikes t o a) :
    (o.perform a).registry.isClaimed t = true := by
  have hcancel {c : ConnectionId} {id : RequestId} (hl : o.registry.lookup c id = some t)
      (hw : (o.registry.cancel c id).2 = true) :
      (o.registry.cancel c id).1.isClaimed t = true := by
    rcases hr : o.registry.cancel c id with ⟨r, won⟩
    obtain rfl : won = true := by rwa [hr] at hw
    obtain ⟨u, hu, -, rfl⟩ := cancel_eq_true hr
    obtain rfl := Option.some.inj (hl.symm.trans hu)
    rw [isClaimed_iff]
    exact List.mem_append_right _ (List.mem_singleton_self _)
  cases a with
  | claim u =>
      obtain ⟨rfl, hw⟩ := h.resolve_right not_false
      rw [claim_eq] at hw
      split at hw
      · cases hw
      · next hc =>
        rw [perform, claim_eq, if_neg hc, isClaimed_iff]
        exact List.mem_append_right _ (List.mem_singleton_self _)
  | cancel c id => exact h.elim (fun h => hcancel h.1 h.2) fun h => hcancel h.1 h.2
  | cancelConnection c =>
      obtain ⟨ht, rfl⟩ := h.resolve_left not_false
      rw [perform, cancelConnection_eq, isClaimed_iff]
      exact List.mem_append_right _ (List.mem_map.2 ⟨t, mem_ofConnection.2 ⟨ht, rfl⟩, rfl⟩)
  | _ => exact h.elim False.elim False.elim

theorem not_wins_of_isClaimed (h : o.registry.isClaimed t = true) : ¬Wins t o a := by
  cases a with
  | claim u =>
      rintro ⟨-, hw⟩
      rw [claim_eq, if_pos h] at hw
      cases hw
  | cancel c id =>
      rintro ⟨hl, hw⟩
      rw [cancel_snd, hl] at hw
      simp [h] at hw
  | _ => exact not_false

theorem mem_fired_cancel {r : InFlight κ} :
    x ∈ (r.cancel c id).1.fired ↔
      x ∈ r.fired ∨ ∃ t, t.token.name = x ∧ r.lookup c id = some t ∧ (r.cancel c id).2 = true := by
  rcases hc : r.cancel c id with ⟨s, _ | _⟩
  · rcases cancel_eq_false hc with ⟨-, rfl⟩ | ⟨t, -, -, rfl⟩ <;> simp
  · obtain ⟨t, hl, -, rfl⟩ := cancel_eq_true hc
    simp [fire, hl, eq_comm]

theorem mem_fired_perform :
    x ∈ (o.perform a).registry.fired ↔
      x ∈ o.registry.fired ∨ a = .fire x ∨ ∃ t, t.token.name = x ∧ Strikes t o a := by
  cases a with
  | begin c id token => simp [(perform_begin o c id token).2, Strikes]
  | claim t =>
      rw [perform, claim_eq]
      split <;> simp [Strikes]
  | release t => simp [perform, Strikes]
  | cancel c id => simp [perform, mem_fired_cancel, Strikes]
  | remove c id => simp [perform, remove, Strikes]
  | cancelConnection c =>
      simp only [perform, cancelConnection_eq, List.mem_append, List.mem_map, mem_ofConnection,
        Strikes, reduceCtorEq, false_or]
      exact or_congr_right (exists_congr fun t => and_comm)
  | fire y => simp [perform, Strikes, eq_comm]

theorem Runs.eq (h : Runs o acts o') : o' = acts.foldl perform o := by
  induction h with
  | refl => rfl
  | step _ _ ih => rw [List.foldl_append, ← ih, List.foldl_cons, List.foldl_nil]

theorem moments_append (o : Office κ) (acts bs : List (Act κ)) :
    o.moments (acts ++ bs) = o.moments acts ++ (acts.foldl perform o).moments bs := by
  induction acts generalizing o with
  | nil => rfl
  | cons a acts ih => rw [List.cons_append, moments, moments, ih, List.foldl_cons, List.cons_append]

theorem Runs.moments_step (h : Runs o acts o') (a : Act κ) :
    o.moments (acts ++ [a]) = o.moments acts ++ [(o', a)] := by
  rw [moments_append, ← h.eq, moments, moments]

theorem Runs.isClaimed (h : Runs o acts o') {m : Office κ × Act κ} (hm : m ∈ o.moments acts)
    (hw : Wins t m.1 m.2 ∨ Strikes t m.1 m.2) : o'.registry.isClaimed t = true := by
  induction h with
  | refl => cases hm
  | step hr _ ih =>
      rw [hr.moments_step] at hm
      rcases List.mem_append.1 hm with hm | hm
      · rw [isClaimed_iff]
        exact claimed_subset_perform _ _ (isClaimed_iff.1 (ih hm))
      · rw [List.mem_singleton.1 hm] at hw
        exact isClaimed_of_wins hw

/-- Once the request of a ticket has been won, or has been cancelled with its connection, nobody
wins it. -/
theorem Runs.wins_once (h : Runs o acts o') (t : Ticket κ) :
    (o.moments acts).Pairwise fun m n =>
      Wins t m.1 m.2 ∨ Strikes t m.1 m.2 → ¬Wins t n.1 n.2 := by
  induction h with
  | refl => exact List.Pairwise.nil
  | step hr _ ih =>
      rw [hr.moments_step]
      refine List.pairwise_append.2 ⟨ih, List.pairwise_singleton _ _, fun m hm n hn hw => ?_⟩
      rw [List.mem_singleton.1 hn]
      exact not_wins_of_isClaimed (hr.isClaimed hm hw)

theorem Runs.mem_fired (h : Runs o acts o') :
    x ∈ o'.registry.fired ↔ x ∈ o.registry.fired ∨ .fire x ∈ acts ∨
      ∃ m ∈ o.moments acts, ∃ t, t.token.name = x ∧ Strikes t m.1 m.2 := by
  induction h with
  | refl => simp [moments]
  | @step acts o' a hr _ ih =>
      rw [mem_fired_perform, ih, hr.moments_step]
      simp only [List.mem_append, List.mem_singleton, or_and_right, exists_or, exists_eq_left,
        eq_comm (a := a), or_assoc, or_left_comm (b := .fire x = a)]

theorem not_frees_of_on (h : a.On c) (ht : t.connection ≠ c) : ¬a.Frees t := by
  cases a with
  | release u =>
      rintro rfl
      exact ht h
  | cancel d id | remove d id =>
      rintro ⟨hd, -⟩
      exact ht (hd.trans h)
  | cancelConnection d => exact fun hd => ht (hd.trans h)
  | _ => exact not_false

theorem Strikes.mem (h : Strikes t o a) (ha : a.On c) :
    t ∈ o.registry.entries ∧ t.connection = c := by
  cases a with
  | cancel d id =>
      obtain ⟨ht, rfl, -⟩ := lookup_some h.1
      exact ⟨ht, ha⟩
  | cancelConnection d => exact ⟨h.1, h.2.trans ha⟩
  | _ => exact h.elim

theorem mem_tickets_of_on (ha : a.On c) (ht : t.connection ≠ c) (hm : t ∈ (o.perform a).tickets) :
    t ∈ o.tickets := by
  cases a with
  | begin d id token =>
      rw [perform] at hm
      split at hm
      · next hb =>
        obtain ⟨-, rfl, -⟩ := begin?_eq_some.1 hb
        refine (List.mem_append.1 hm).resolve_right fun hn => ht ?_
        rw [List.mem_singleton.1 hn]
        exact ha
      · exact hm
  | _ => exact hm

theorem mem_entries_perform_of_on (h : o.Sound) (hh : a.Held o) (ha : a.On c)
    (ht : t.connection ≠ c) :
    t ∈ (o.perform a).registry.entries ↔ t ∈ o.registry.entries := by
  constructor
  · intro hm
    have htickets := mem_tickets_of_on ha ht ((h.perform a).held t hm)
    exact ((h.mem_perform hh htickets).1 hm).1
  · exact fun hm => (h.mem_perform hh (h.held t hm)).2 ⟨hm, not_frees_of_on ha ht⟩

theorem isClaimed_perform_of_on (hc : a.On c) (ht : t.connection ≠ c) :
    (o.perform a).registry.isClaimed t = o.registry.isClaimed t := by
  have hne {u : Ticket κ} (hu : u.connection = c) :
      (t.connection, t.serial) ≠ (u.connection, u.serial) :=
    fun he => ht ((congrArg Prod.fst he).trans hu)
  rw [Bool.eq_iff_iff, isClaimed_iff, isClaimed_iff]
  refine ⟨fun hm => ?_, fun hm => claimed_subset_perform o a hm⟩
  cases a with
  | begin d id token => rwa [(perform_begin o d id token).1] at hm
  | claim u =>
      rw [perform, claim_eq] at hm
      split at hm
      · exact hm
      · exact (List.mem_append.1 hm).resolve_right fun hs => hne hc (List.mem_singleton.1 hs)
  | release u => rwa [perform, claimed_release] at hm
  | cancel d id =>
      rw [perform] at hm
      rcases hr : o.registry.cancel d id with ⟨r, _ | _⟩ <;> rw [hr] at hm
      · rcases cancel_eq_false hr with ⟨-, rfl⟩ | ⟨u, -, -, rfl⟩ <;> exact hm
      · obtain ⟨u, hl, -, rfl⟩ := cancel_eq_true hr
        have hu := (lookup_some hl).2.1.trans hc
        exact (List.mem_append.1 hm).resolve_right fun hs => hne hu (List.mem_singleton.1 hs)
  | remove d id => exact hm
  | cancelConnection d =>
      rw [perform, cancelConnection_eq] at hm
      refine (List.mem_append.1 hm).resolve_right fun hs => ?_
      obtain ⟨u, hu, he⟩ := List.mem_map.1 hs
      exact hne ((mem_ofConnection.1 hu).2.trans hc) he.symm
  | fire x => exact hc.elim

theorem snd_release_eq_true (h : o.Sound) (ht : t ∈ o.tickets) :
    (o.registry.release t).2 = true ↔ o.registry.lookup t.connection t.id = some t := by
  cases hl : o.registry.lookup t.connection t.id with
  | none => simp [InFlight.release, hl]
  | some u =>
      obtain ⟨hu, hc, -⟩ := lookup_some hl
      by_cases hs : u.serial = t.serial
      · simp [InFlight.release, hl, h.apart u (h.held u hu) t ht hc hs]
      · simp only [InFlight.release, hl, hs, if_false, Option.some.injEq, Bool.false_eq_true,
          false_iff]
        rintro rfl
        exact hs rfl

variable [DecidableEq κ]

instance (t : Ticket κ) (o : Office κ) : (a : Act κ) → Decidable (Wins t o a)
  | .claim _ | .cancel _ _ => inferInstanceAs (Decidable (_ ∧ _))
  | .begin _ _ _ | .release _ | .remove _ _ | .cancelConnection _ | .fire _ =>
    inferInstanceAs (Decidable False)

instance (t : Ticket κ) (o : Office κ) : (a : Act κ) → Decidable (Strikes t o a)
  | .cancel _ _ | .cancelConnection _ => inferInstanceAs (Decidable (_ ∧ _))
  | .begin _ _ _ | .claim _ | .release _ | .remove _ _ | .fire _ =>
    inferInstanceAs (Decidable False)

theorem isCancelled_iff_exists {r : InFlight κ} {token : Token κ} :
    r.isCancelled token = true ↔ ∃ x ∈ token.name :: token.ancestors, x ∈ r.fired := by
  rw [isCancelled_iff]
  simp

theorem isCancelled_perform_of_on (ha : a.On c) {token : Token κ} :
    (o.perform a).registry.isCancelled token = true ↔
      o.registry.isCancelled token = true ∨
        ∃ u ∈ o.registry.entries, u.connection = c ∧ Strikes u o a ∧
          u.token.name ∈ token.name :: token.ancestors := by
  have hfire {x : κ} : a ≠ .fire x := by
    rintro rfl
    exact ha
  simp only [isCancelled_iff_exists, mem_fired_perform, hfire, false_or, and_or_left, exists_or]
  refine or_congr_right ⟨?_, ?_⟩
  · rintro ⟨_, hx, u, rfl, hu⟩
    exact ⟨u, (hu.mem ha).1, (hu.mem ha).2, hu, hx⟩
  · rintro ⟨u, -, -, hu, hx⟩
    exact ⟨_, hx, u, rfl, hu⟩

/-- After any run: no two requests in flight share their connection and id, and exactly such a pair
is refused. At most one of those who compete for a request wins it, and nobody does once it was
cancelled with its connection. A token is cancelled exactly if it was fired by itself, or if a
cancellation removed a request that was begun with it or with a token it was made from. A release
removes the request of its ticket, and is true exactly if that was in flight. What is done on one
connection leaves the requests of all others in flight, and leaves open who answers them; and it
cancels a token only by removing, on its own connection, a request begun with that or with a token
it was made from. -/
theorem Runs.one_winner (h : Runs {} acts o) :
    o.Distinct ∧
    (∀ c id token, o.registry.begin? c id token = none ↔
      ∃ t ∈ o.registry.entries, t.connection = c ∧ t.id = id) ∧
    (∀ t, (moments {} acts).Pairwise fun m n =>
      Wins t m.1 m.2 ∨ Strikes t m.1 m.2 → ¬Wins t n.1 n.2) ∧
    (∀ token, o.registry.isCancelled token = true ↔ ∃ x ∈ token.name :: token.ancestors,
      .fire x ∈ acts ∨ ∃ m ∈ moments {} acts, ∃ t, t.token.name = x ∧ Strikes t m.1 m.2) ∧
    (∀ t ∈ o.tickets,
      ((o.registry.release t).2 = true ↔ o.registry.lookup t.connection t.id = some t) ∧
      ∀ u, u ∈ (o.registry.release t).1.entries ↔ u ∈ o.registry.entries ∧ u ≠ t) ∧
    ∀ c a, a.Held o → a.On c →
      (∀ t, t.connection ≠ c →
        (t ∈ (o.perform a).registry.entries ↔ t ∈ o.registry.entries) ∧
        (o.perform a).registry.isClaimed t = o.registry.isClaimed t) ∧
      ∀ token, (o.perform a).registry.isCancelled token = true ↔
        o.registry.isCancelled token = true ∨
          ∃ u ∈ o.registry.entries, u.connection = c ∧ Strikes u o a ∧
            u.token.name ∈ token.name :: token.ancestors := by
  have ho : o.Sound := h.sound .empty
  refine ⟨h.distinct, fun c id token => ?_, h.wins_once, fun token => ?_, fun t ht => ?_,
    fun c a hh ha => ⟨fun t ht => ?_, fun token => isCancelled_perform_of_on ha⟩⟩
  · rw [begin?_eq_none, Option.isSome_iff_ne_none, Ne, lookup_eq_none]
    simp
  · rw [isCancelled_iff_exists]
    refine exists_congr fun x => and_congr_right fun _ => ?_
    rw [h.mem_fired]
    exact or_iff_right nofun
  · exact ⟨snd_release_eq_true ho ht, fun u => ho.mem_entries_release ht⟩
  · exact ⟨mem_entries_perform_of_on ho hh ha ht, isClaimed_perform_of_on ha ht⟩

theorem one_winner_of_answering :
    (first ∈ answering.tickets ∧ (answering.registry.release first).2 = true) ∧
    ¬answering.registry.isCancelled first.token = true ∧
    ¬Wins first answering (.cancel first.connection first.id) := by
  have hrun : Runs {} _ answering :=
    .step (.step .refl trivial) (show first ∈ Office.tickets _ by decide)
  obtain ⟨-, -, -, hcancelled, hrelease, -⟩ := hrun.one_winner
  obtain ⟨-, -, hwins, -⟩ := (hrun.step (a := .cancel first.connection first.id) trivial).one_winner
  have ht : first ∈ answering.tickets := by decide
  refine ⟨⟨ht, (hrelease first ht).1.2 (by decide)⟩, ?_, ?_⟩
  · rw [hcancelled]
    simp [moments, Strikes]
  · have hlater := (List.pairwise_cons.1 (List.pairwise_cons.1 (hwins first)).2).1
    exact hlater _ (List.mem_singleton_self _) (.inl ⟨rfl, by decide⟩)

def partner : Ticket Nat := ⟨⟨"d"⟩, .number 1, 0, first.token⟩

def sharing : List (Act Nat) :=
  [.begin first.connection first.id first.token, .begin partner.connection partner.id partner.token]

/-- A cancellation on the one connection fires the token of the other one's request, which nobody
has cancelled, and which is in flight as before. -/
theorem fired_with_partner :
    let o := sharing.foldl perform ({} : Office Nat)
    let a := Act.cancel first.connection first.id
    Runs {} (sharing ++ [a]) (o.perform a) ∧ a.On first.connection ∧
    partner.connection ≠ first.connection ∧ partner ∈ (o.perform a).registry.entries ∧
    (∀ m ∈ moments {} (sharing ++ [a]), ¬Strikes partner m.1 m.2) ∧
    o.registry.isCancelled partner.token = false ∧
    (o.perform a).registry.isCancelled partner.token = true := by
  intro o a
  have hrun : Runs {} sharing o :=
    (Runs.refl.step (a := .begin first.connection first.id first.token) trivial).step
      (a := .begin partner.connection partner.id partner.token) trivial
  exact ⟨hrun.step trivial, rfl, by decide, by decide, by decide, by decide, by decide⟩

end Office

end Parley.InFlight
